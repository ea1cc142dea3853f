import SimplicioFast.Slots.Envelope

/-!
# Executing a slot

`SlotExecutor.execute` looks for the receipt of an envelope, makes the overlay directory of the slot, carries out the
writes, and stores a receipt.  It holds the lock while it looks for the receipt, and while it stores it.

Paths are joined as `pathlib` does it, and resolved name by name; there are no links.
-/

namespace SimplicioFast

namespace Slots

open Crash

/-- What `execute` reads of a `Snapshot`. -/
structure Snapshot where
  snapshotId : PyStr
  sourceHash : PyStr

/-- The arguments of `execute`. -/
structure Call where
  envelope : JsonObject
  snapshot : Snapshot
  writes : Dict PyStr Bytes
  runtimeAvailable : Bool := true
  rustAvailable : Bool := false

/-- What is measured of an execution. -/
structure Measures where
  latencyMs : Decimal
  cpuMs : Decimal
  rssKibDelta : ℕ

/-- The files, and the counter of the executor. -/
structure Store where
  fs : FileSystem
  workersStarted : ℕ

/-- How many writes were begun, and the bytes of those that were carried out. -/
structure Progress where
  operations : ℕ
  bytesWritten : ℕ

/-! ## Paths -/

/-- A path before it is resolved: where it starts, and the names behind. -/
structure Joined where
  base : List PyStr
  names : List PyStr

/-- `path / text`. -/
def Joined.join (path : Joined) (text : PyStr) : Joined :=
  if text.head? = some (.scalar '/') then ⟨[], text.splitOn (.scalar '/')⟩
  else ⟨path.base, path.names ++ text.splitOn (.scalar '/')⟩

def climb (p : List PyStr) (name : PyStr) : List PyStr :=
  if FileSystem.isDot name then p else if name = ("..") then p.dropLast else p ++ [name]

/-- `path.resolve()`. -/
def Joined.resolve (path : Joined) : List PyStr := path.names.foldl climb path.base

/-- What leads to the directory, name by name. -/
def Joined.steps (path : Joined) : List (List PyStr) := (path.names.scanl climb path.base).tail

section Paths

variable (c : Conversions) (root : List PyStr) (env : Envelope)

def overlaysDir : List PyStr := root ++ [("overlays" : PyStr)]

/-- `f"{env['slot_id']}-g{env['generation']}-{env['fence']}"`. -/
def dirName : PyStr :=
  c.str env.slotId.value ++ (("-g" : PyStr) ++ (Json.writeInt env.generation ++ .scalar '-' :: c.str env.fence.value))

/-- The path of the overlay; only a text can be joined. -/
def overlayPath : Except SlotRaised Joined :=
  match env.runId.value with
  | .str runId => .ok ((((⟨root, []⟩ : Joined).join "overlays").join runId).join (dirName c env))
  | _ => .error .typeOrValueError

def receiptsDir : List PyStr := root ++ [("receipts" : PyStr)]

def receiptPath : List PyStr := receiptsDir root ++ [env.idempotencyKey ++ (".json" : PyStr)]

/-- The path that a receipt is written to first. -/
def temporaryPath : List PyStr := receiptsDir root ++ [env.idempotencyKey ++ (".tmp" : PyStr)]

end Paths

/-! ## The parts of `execute` -/

section Parts

variable (c : Conversions) (root : List PyStr)

/-- The checks before anything is looked up. -/
def accept (call : Call) : Except SlotRaised Envelope := do
  let env ← validateEnvelope c call.envelope
  require (isText call.snapshot.sourceHash env.sourceHash.value) "snapshot_stale" "source hash differs"
  return env

/-- A stored receipt as a call gets it. -/
def replayed (m : JsonObject) : JsonObject :=
  (m.set "cache_hit" (.bool true) (Json.distinctKeys_bool _)).set "duplicate_dispatch" (.bool true)
    (Json.distinctKeys_bool _)

/-- The value of a call of Python that may raise `TypeError` or `ValueError`. -/
def orCaught {α : Type} : Option α → Except SlotRaised α
  | some a => .ok a
  | none => .error .typeOrValueError

/-- The receipt that is stored as these bytes. -/
def readReceipt (key : PyStr) (b : Bytes) : Except SlotRaised JsonObject := do
  let value ← orCaught ((PyStr.decode b).bind Json.loads)
  let fields ← orCaught (c.dict value)
  let supplied := (fields.get? "receipt_digest").getD (.str [])
  require (isText (digest (fields.erase "receipt_digest").toJson) supplied) "receipt_corrupt" key
  let m ← orCaught (JsonObject.ofJson? value)
  return replayed m

def lookup (env : Envelope) : Prog Store SlotRaised (Option JsonObject) := fun s =>
  match s.fs.get? (receiptPath root env) with
  | none =>
    let started := { s with workersStarted := s.workersStarted + 1 }
    ⟨[started], started, .ok none⟩
  | some .dir => ⟨[], s, .error (.os .isADirectory)⟩
  | some (.file b) => ⟨[], s, (readReceipt c env.idempotencyKey b).map some⟩

def prepare (env : Envelope) : Prog FileSystem SlotRaised (List PyStr) := do
  let path ← Prog.read fun _ => overlayPath c root env
  if path.names.any (.scalar '\x00' ∈ ·) then Prog.raise .typeOrValueError
  else do
    FileSystem.makedirs .os path.base
    path.steps.foldlM (fun _ p => FileSystem.ensureDir .os p) ⟨⟩
    return path.resolve

def target (overlay : List PyStr) (name : PyStr) : Except SlotRaised (List PyStr) :=
  if .scalar '\x00' ∈ name then .error .typeOrValueError
  else
    let target := (Joined.join ⟨overlay, []⟩ name).resolve
    if overlay <+: target ∧ target ≠ overlay then .ok target else .error (.fastExecutor "overlay_escape" name)

def writeOne (env : Envelope) (overlay : List PyStr) (p : Progress) (item : PyStr × Bytes) :
    Prog FileSystem SlotRaised Progress :=
  if env.maxOperations < p.operations + 1 then Prog.raise (.fastExecutor "budget_exhausted" "max_operations")
  else do
    let path ← Prog.read fun _ => target overlay item.1
    FileSystem.makedirs .os path.dropLast
    FileSystem.write .os path item.2
    return ⟨p.operations + 1, p.bytesWritten + item.2.length⟩

/-- `sorted(writes.items())`. -/
def ordered (writes : Dict PyStr Bytes) : List (PyStr × Bytes) := writes.entries.insertionSort fun f g => f.1 ≤ g.1

def execution (call : Call) (env : Envelope) (p : Progress) (measures : Measures) : Execution where
  env := env
  snapshotId := call.snapshot.snapshotId
  operations := p.operations
  bytesWritten := p.bytesWritten
  latencyMs := measures.latencyMs
  cpuMs := measures.cpuMs
  rssKibDelta := measures.rssKibDelta
  runtimeAvailable := call.runtimeAvailable
  rustAvailable := call.rustAvailable

def receiptBytes (receipt : JsonObject) : Bytes :=
  PyStr.encodeAscii (Json.dumps true receipt.toJson ++ [.scalar '\n'])

def record (env : Envelope) (receipt : JsonObject) : Prog FileSystem SlotRaised JsonObject := do
  FileSystem.makedirs .os (receiptsDir root)
  FileSystem.write .os (temporaryPath root env) (receiptBytes receipt)
  FileSystem.rename .os (temporaryPath root env) (receiptPath root env)
  return receipt

def onFiles {α : Type} (m : Prog FileSystem SlotRaised α) : Prog Store SlotRaised α := fun s =>
  ⟨(m s.fs).passed.map fun fs => { s with fs := fs }, { s with fs := (m s.fs).last }, (m s.fs).result⟩

/-- What `execute` does when no receipt is stored. -/
def carryOut (call : Call) (env : Envelope) (measures : Measures) : Prog FileSystem SlotRaised JsonObject := do
  let overlay ← prepare c root env
  let progress ← (ordered call.writes).foldlM (writeOne env overlay) ⟨0, 0⟩
  record root env (sealed (execution call env progress measures).unsigned)

def execute (call : Call) (measures : Measures) : Prog Store SlotRaised JsonObject := do
  let env ← Prog.read fun _ => accept c call
  let found ← lookup c root env
  found.elim (onFiles (carryOut c root call env measures)) pure

end Parts

end Slots

end SimplicioFast
