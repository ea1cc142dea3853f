import SimplicioFast.Delivery.Processor

/-!
# The delivery engine

`DeliveryEngine.deliver` checks a change set, looks for a stored receipt under the key of the request, applies
the change set through the processor (or, for a write of the profile `full`, through the Runtime), builds the
snapshot of the changed sources and stores a receipt under the key.

The snapshot, the Runtime and the disk that takes the receipts are parameters (`World`).
-/

namespace SimplicioFast

namespace Delivery

/-- What the engine reads in a snapshot: its generation, and whether its provenance has the mode
`integrated`. -/
structure SnapshotInfo where
  generation : PyStr
  integrated : Bool

/-- What the engine finds around it: `build_snapshot` with the snapshot that it leaves, the effect sink of the
Runtime, and what storing a receipt file raises. -/
structure World extends Workshop where
  snapshotFile : Bool
  openSnapshot : Files → Except Raised SnapshotInfo
  buildSnapshot : Files → Except Raised SnapshotInfo
  effectSink : JsonObject → Files → Except Raised JsonObject × Files
  storeRaises : PyStr → Option Raised

/-- The arguments of `deliver`. -/
structure Request where
  changeset : JsonObject
  profile : PyStr
  engineReceipt : JsonObject
  write : Bool
  idempotencyKey : Option PyStr
  runtimeTransaction : Option JsonObject

/-- The member `refresh` of a receipt. -/
structure Refresh where
  attempted : Bool
  status : PyStr
deriving DecidableEq

/-- A receipt of `deliver`.  A member that is `none` is not in the receipt or is `None` there. -/
structure Receipt where
  status : PyStr
  profile : PyStr
  engine : JsonObject
  changesetSha256 : PyStr
  changesetFiles : Option (List Json)
  apply : Option ApplyReceipt
  baseGeneration : PyStr
  resultGeneration : Option PyStr
  key : PyStr
  hit : Bool
  replayed : Bool
  layer : PyStr
  fullEffectAuthority : PyStr
  mutationApplied : Bool
  runtime : Option JsonObject
  refresh : Option Refresh
  reasonCodes : List PyStr

/-- The stored receipts, by their files. -/
abbrev Receipts := PyStr → Option Receipt

/-! ## The request -/

/-- `PROFILE_NAMES`. -/
def profileName (profile : PyStr) : Option PyStr :=
  if profile = "full" then some "Full"
  else if profile = "loop-standalone" then some "Loop standalone"
  else none

def Request.changeDigest (call : Request) : PyStr := sha256 (PyStr.encodeAscii (call.changeset.toJson.dumps true))

/-- The text of which a key is the digest, when the caller gives none. -/
def Request.keyText (call : Request) : PyStr :=
  (Json.obj [("changeset", .str call.changeDigest), ("profile", .str call.profile),
    ("write", .bool call.write),
    ("runtime_transaction", (call.runtimeTransaction.map JsonObject.toJson).getD .null)]).dumps true

/-- The key that the caller gives; an empty one is none. -/
def Request.suppliedKey (call : Request) : Option PyStr := call.idempotencyKey.filter (· ≠ [])

/-- `request_key`. -/
def Request.key (call : Request) : PyStr := call.suppliedKey.getD (sha256 (PyStr.encodeAscii call.keyText))

def requireChanges : Option Json → Except Raised (List Json)
  | some (.arr (c :: cs)) => .ok (c :: cs)
  | _ => .error (.valueError "changeset must contain at least one change")

/-- The checks of `deliver` before it looks for a receipt; the changes. -/
def checkRequest (snapshotFile : Bool) (call : Request) : Except Raised (List Json) := do
  require (profileName call.profile).isSome ("unsupported delivery profile: " ++ call.profile)
  require (asStr? (call.changeset.toJson.get? "schema") = some ("simplicio.fast.changeset/v2" : PyStr))
    "unsupported changeset schema"
  let changes ← requireChanges (call.changeset.toJson.get? "changes")
  if snapshotFile then .ok changes else .error (.mapperIngestError "snapshot_missing")

/-- The stored receipt as it is returned for a request with the given key. -/
def Receipt.replay (r : Receipt) (key : PyStr) : Receipt :=
  { r with key := key, hit := true, replayed := true, layer := "hit" }

/-! ## The Runtime -/

/-- `value[key]`. -/
def subscript (value : Json) (key : PyStr) : Except Raised Json :=
  match value with
  | .obj fields => match Dict.find fields key with
    | some v => .ok v
    | none => .error .keyError
  | _ => .error .typeError

/-- `[change["path"] for change in changes]`. -/
def changePaths (changes : List Json) : Except Raised (List Json) :=
  changes.mapM fun change => subscript change "path"

/-- `a < b` of two numbers, the infinite ones included. -/
def ltNumber : Json → Json → Option Bool
  | .nonFinite k, .nonFinite k' => some (k = .negInfinity && k' = .infinity)
  | .nonFinite k, v => v.number?.map fun _ => k = .negInfinity
  | v, .nonFinite k => v.number?.map fun _ => k = .infinity
  | v, w => match v.number?, w.number? with
    | some (p, q), some (r, s) => some (p * 10 ^ s < r * 10 ^ q)
    | _, _ => none

mutual

/-- `a < b`, which raises for values that have no order. -/
def ltValue : Json → Json → Except Raised Bool
  | .arr vs, .arr ws => ltItems vs ws
  | .str s, .str t => .ok (s < t)
  | v, w => match ltNumber v w with
    | some b => .ok b
    | none => .error .typeError

/-- `a < b` of two lists: the first items that differ decide. -/
def ltItems : List Json → List Json → Except Raised Bool
  | [], ws => .ok (!ws.isEmpty)
  | _ :: _, [] => .ok false
  | v :: vs, w :: ws => if v.pyEq w then ltItems vs ws else ltValue v w

end

/-- The value put behind the values that are not greater. -/
def insertValue (v : Json) : List Json → Except Raised (List Json)
  | [] => .ok [v]
  | w :: ws => do
    if ← ltValue v w then return v :: w :: ws
    else return w :: (← insertValue v ws)

/-- `sorted(values)`. -/
def sortedValues (values : List Json) : Except Raised (List Json) :=
  values.foldlM (fun sorted v => insertValue v sorted) []

/-- The items over which `sorted(value or [])` goes. -/
def itemsOf : Option Json → Except Raised (List Json)
  | none => .ok []
  | some .null => .ok []
  | some (.arr vs) => .ok vs
  | some (.obj fields) => .ok (fields.map fun f => .str f.1)
  | some (.str s) => .ok (s.map fun c => .str [c])
  | some v => match v.number? with
    | some (0, _) => .ok []
    | _ => .error .typeError

/-- The checks of `deliver` on the transaction. -/
def checkTransaction (changeDigest : PyStr) (changes : List Json) (transaction : JsonObject) :
    Except Raised Unit := do
  let paths ← changePaths changes
  let writeSet ← sortedValues (← itemsOf (transaction.toJson.get? "write_set"))
  let paths ← sortedValues paths
  require (Json.pyEqItems writeSet paths) "runtime_write_set_mismatch"
  match (transaction.toJson.get? "effect").bind (Json.get? · "patch_ref") with
  | none => .ok ()
  | some .null => .ok ()
  | some patchRef => require (asStr? (some patchRef) = some changeDigest) "runtime_patch_ref_mismatch"

def isObject : Option Json → Bool
  | some (.obj _) => true
  | _ => false

/-- Whether the value is left out or a list of objects. -/
def isObjects : Option Json → Bool
  | none => true
  | some (.arr vs) => vs.all fun v => isObject (some v)
  | _ => false

/-- The checks of `run_runtime_effect_transaction` before it turns to the Runtime. -/
def checkEffect (transaction : JsonObject) : Except Raised Unit := do
  let t := transaction.toJson
  require (asStr? (t.get? "schema") = some ("simplicio.effect-transaction/v1" : PyStr))
    "unsupported Runtime effect transaction schema"
  require (isObject (t.get? "effect")) "Runtime transaction effect must be an object"
  require (isObject (t.get? "plan")) "Runtime transaction plan must be an object"
  require (isObject (t.get? "causal")) "Runtime transaction causal data must be an object"
  require (isObject (t.get? "authorization")) "Runtime transaction authorization must be an object"
  require (isObjects (t.get? "validation_plan"))
    "Runtime transaction validation_plan must be a list of objects"

/-- The name of an exception that `deliver` catches around the Runtime. -/
def caught : Raised → Option PyStr
  | .valueError _ => some "ValueError"
  | .mapperIngestError _ => some "MapperIngestError"
  | .runtimeError _ => some "RuntimeError"
  | .typeError => some "TypeError"
  | .unicodeDecodeError => some "UnicodeDecodeError"
  | .unicodeEncodeError => some "UnicodeEncodeError"
  | .other name handled => if handled then some name else none
  | .attributeError => none
  | .keyError => none
  | .osError => none

variable (w : World) (files : Files) (call : Request) (changes : List Json)

/-- The body of the `try` of `deliver`. -/
def submit (transaction : JsonObject) : Except Raised JsonObject × Files :=
  match checkTransaction call.changeDigest changes transaction with
  | .error x => (.error x, files)
  | .ok () => match checkEffect transaction with
    | .error x => (.error x, files)
    | .ok () => w.effectSink transaction files

/-! ## Delivering -/

/-- `_refresh_after_write`: the generation of the snapshot, and its status. -/
def refreshAfterWrite : Except Raised (Option PyStr × PyStr) := do
  let before ← w.openSnapshot files
  if before.integrated then return (none, "mapper_refresh_required")
  else do
    let after ← w.buildSnapshot files
    return (some after.generation, "refreshed")

/-- The members of a receipt that do not depend on what happened. -/
def Request.receipt (base : PyStr) : Receipt where
  status := "blocked"
  profile := (profileName call.profile).getD []
  engine := call.engineReceipt
  changesetSha256 := call.changeDigest
  changesetFiles := none
  apply := none
  baseGeneration := base
  resultGeneration := none
  key := call.key
  hit := false
  replayed := false
  layer := "miss"
  fullEffectAuthority := if call.profile = "full" then "simplicio-runtime" else "local-guard"
  mutationApplied := false
  runtime := none
  refresh := none
  reasonCodes := []

/-- The receipt of a transaction that is not completed. -/
def blockedReceipt (base : PyStr) (runtime : Option JsonObject) (reasonCodes : List PyStr) : Receipt :=
  { call.receipt base with runtime := runtime, reasonCodes := reasonCodes }

/-- The receipt of a completed transaction. -/
def completedReceipt (base : PyStr) (runtime : JsonObject) (generation : Option PyStr)
    (refreshStatus : PyStr) : Receipt :=
  { call.receipt base with
    status := "applied"
    resultGeneration := generation
    mutationApplied := true
    runtime := some runtime
    refresh := some ⟨refreshStatus = "refreshed", refreshStatus⟩
    reasonCodes := "runtime_effect_completed" ::
      if refreshStatus = "mapper_refresh_required" then ["mapper_refresh_required"] else [] }

/-- The receipt of a change set that the processor has applied. -/
def appliedReceipt (base : PyStr) (paths : List Json) (applied : ApplyReceipt)
    (generation : Option PyStr) (refresh : Refresh) : Receipt :=
  { call.receipt base with
    status := if applied.applied then "applied" else if call.write then "refused" else "dry_run"
    changesetFiles := some paths
    apply := some applied
    resultGeneration := generation
    mutationApplied := applied.applied
    refresh := some refresh
    reasonCodes := applied.reasonCode.toList ++
      (if applied.applied then [] else ["changeset_not_applied"] : List PyStr) }

/-- The outcome of a transaction is that it is completed. -/
def Completed (outcome : JsonObject) : Prop :=
  asStr? (outcome.toJson.get? "state") = some ("completed" : PyStr)

instance (outcome : JsonObject) : Decidable (Completed outcome) := by
  unfold Completed
  infer_instance

/-- The part of `deliver` after the transaction has returned. -/
def conclude (base : PyStr) (outcome : JsonObject) : Except Raised Receipt :=
  if Completed outcome then do
    let (generation, status) ← refreshAfterWrite w files
    return completedReceipt call base outcome generation status
  else return blockedReceipt call base (some outcome) ["runtime_authorization_required"]

/-- The part of `deliver` for a write of the profile `full`. -/
def fullEffect (base : PyStr) : Except Raised Receipt × Files :=
  match call.runtimeTransaction with
  | none => (.ok (blockedReceipt call base none ["runtime_authorization_required"]), files)
  | some transaction => match submit w files call changes transaction with
    | (.error x, files) => match caught x with
      | none => (.error x, files)
      | some name =>
        (.ok (blockedReceipt call base none ["runtime_effect_transaction_rejected", name]), files)
    | (.ok outcome, files) => (conclude w files call base outcome, files)

/-- The members `result_generation` and `refresh` of the receipt of a change set. -/
def refreshWhen (changed : Bool) (base : PyStr) : Except Raised (Option PyStr × Refresh) :=
  if changed then do
    let (generation, status) ← refreshAfterWrite w files
    return (generation, ⟨status = "refreshed", status⟩)
  else return (some base, ⟨false, "not-needed"⟩)

/-- The part of `deliver` after the processor has returned. -/
def recordApplied (base : PyStr) (applied : ApplyReceipt) : Except Raised Receipt := do
  let (generation, refresh) ← refreshWhen w files (call.write && applied.applied) base
  let paths ← changePaths changes
  return appliedReceipt call base paths applied generation refresh

/-- The part of `deliver` for every other request. -/
def localEffect (base : PyStr) : Except Raised Receipt × Files :=
  match applyChangeset w.toWorkshop files call.write changes with
  | (.error x, files) => (.error x, files)
  | (.ok applied, files) => (recordApplied w files call changes base applied, files)

/-- The part of `deliver` from the opening of the snapshot to the receipt. -/
def carryOut : Except Raised Receipt × Files :=
  match w.openSnapshot files with
  | .error x => (.error x, files)
  | .ok before =>
    if call.profile = "full" ∧ call.write then fullEffect w files call changes before.generation
    else localEffect w files call changes before.generation

/-- The receipts with another one in a file. -/
def putReceipt (receipts : Receipts) (file : PyStr) (r : Receipt) : Receipts := fun f =>
  if f = file then some r else receipts f

/-- `_atomic_json`, of a receipt. -/
def storeReceipt (receipts : Receipts) (file : PyStr) (r : Receipt) : Except Raised Receipt × Receipts :=
  match w.storeRaises file with
  | some x => (.error x, receipts)
  | none => (.ok r, putReceipt receipts file r)

/-- The part of `deliver` for a request without a stored receipt. -/
def deliverAnew (receipts : Receipts) (file : PyStr) : Except Raised Receipt × Files × Receipts :=
  match carryOut w files call changes with
  | (.error x, files) => (.error x, files, receipts)
  | (.ok r, files) =>
    let stored := storeReceipt w receipts file r
    (stored.1, files, stored.2)

/-- `DeliveryEngine.deliver`; `receiptFile` gives the file of a key. -/
def deliver (receiptFile : PyStr → PyStr) (receipts : Receipts) : Except Raised Receipt × Files × Receipts :=
  match checkRequest w.snapshotFile call with
  | .error x => (.error x, files, receipts)
  | .ok changes => match receipts (receiptFile call.key) with
    | some cached => (.ok (cached.replay call.key), files, receipts)
    | none => deliverAnew w files call changes receipts (receiptFile call.key)

/-! ## The branches of a delivery -/

variable {w files call changes} {receiptFile : PyStr → PyStr} {receipts : Receipts} {r : Receipt} {x : Raised}

theorem deliver_of_refused (h : checkRequest w.snapshotFile call = .error x) :
    deliver w files call receiptFile receipts = (.error x, files, receipts) := by
  rw [deliver, h]

theorem deliver_of_stored (h : checkRequest w.snapshotFile call = .ok changes)
    (stored : receipts (receiptFile call.key) = some r) :
    deliver w files call receiptFile receipts = (.ok (r.replay call.key), files, receipts) := by
  rw [deliver, h]
  simp only [stored]

theorem deliver_of_unstored (h : checkRequest w.snapshotFile call = .ok changes)
    (unstored : receipts (receiptFile call.key) = none) :
    deliver w files call receiptFile receipts =
      deliverAnew w files call changes receipts (receiptFile call.key) := by
  rw [deliver, h]
  simp only [unstored]

theorem checkRequest_profile {b : Bool} (h : checkRequest b call = .ok changes) :
    (profileName call.profile).isSome := by
  obtain ⟨_, known, -⟩ := bind_ok.1 h
  exact require_eq_ok_iff.1 known

theorem deliverAnew_receipts (file : PyStr) :
    (deliverAnew w files call changes receipts file).2.2 = receipts ∨
      ∃ r, (deliverAnew w files call changes receipts file).1 = .ok r ∧
        (deliverAnew w files call changes receipts file).2.2 = putReceipt receipts file r := by
  unfold deliverAnew
  split
  · exact .inl rfl
  · next r files e =>
    unfold storeReceipt
    cases w.storeRaises file with
    | some x => exact .inl rfl
    | none => exact .inr ⟨r, rfl, rfl⟩

/-! ## A small world -/

def sampleFiles : Files := put (fun _ => none) "a.py" (PyStr.asciiBytes "x = 1\n")

def sampleWorld (buildSnapshot : Files → Except Raised SnapshotInfo) : World where
  locate := id
  inside _ := true
  replaceable _ := true
  native := none
  snapshotFile := true
  openSnapshot _ := .ok ⟨"g1", false⟩
  buildSnapshot := buildSnapshot
  effectSink _ files := (.error (.other "ModuleNotFoundError" true), files)
  storeRaises _ := none

def sampleReplacement (line : PyStr) : Json :=
  .obj [("start_line", .int 1), ("end_line", .int 1), ("content", .str line)]

def sampleChange (line : PyStr) : Json :=
  .obj [("path", .str "a.py"), ("expected_sha256", .str "9e26bf369911c45c243c684147b23fc9e1dcfcf257d299a1c632016a6fcd33f4"),
    ("replacements", .arr [sampleReplacement line])]

theorem sampleDistinct (line : PyStr) : (Json.obj [("schema", .str "simplicio.fast.changeset/v2"),
    ("changes", .arr [sampleChange line])]).DistinctKeys := by
  have outer : (["schema", "changes"] : List PyStr).Nodup := by decide
  have change : (["path", "expected_sha256", "replacements"] : List PyStr).Nodup := by decide
  have replacement : (["start_line", "end_line", "content"] : List PyStr).Nodup := by decide
  exact ⟨outer, trivial, ⟨⟨change, trivial, trivial,
    ⟨⟨replacement, trivial, trivial, trivial, trivial⟩, trivial⟩, trivial⟩, trivial⟩, trivial⟩

def sampleRequest (line : PyStr) : Request where
  changeset := ⟨[("schema", .str "simplicio.fast.changeset/v2"), ("changes", .arr [sampleChange line])],
    sampleDistinct line⟩
  profile := "loop-standalone"
  engineReceipt := .empty
  write := true
  idempotencyKey := none
  runtimeTransaction := none

theorem checkRequest_sampleRequest (buildSnapshot : Files → Except Raised SnapshotInfo) (line : PyStr)
    (key : Option PyStr) : checkRequest (sampleWorld buildSnapshot).snapshotFile
      { sampleRequest line with idempotencyKey := key } = .ok [sampleChange line] := rfl

end Delivery

end SimplicioFast
