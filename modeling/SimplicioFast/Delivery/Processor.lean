import SimplicioFast.Lib.Json
import SimplicioFast.Lib.Lines
import SimplicioFast.Lib.Machine
import SimplicioFast.Lib.Sha256

/-!
# Applying a change set

`apply_changeset` reads the files that a change set names, computes their new contents, and leaves the write to
the Dev CLI when it is installed.  When the Dev CLI refuses, or when its result has other digests, the files
are restored and written by the processor itself.

The place of a path, the Dev CLI and the files that can be replaced are parameters (`Workshop`).
-/

namespace SimplicioFast

namespace Delivery

/-- The contents of the files, by their resolved paths. -/
abbrev Files := PyStr → Option Bytes

/-- The exceptions of a delivery.  `other` is an exception of code that is not modelled, with the name of its
class; `handled` says that it is an `ImportError`, a `RuntimeError`, a `TypeError` or a `ValueError`. -/
inductive Raised
  | valueError (message : PyStr)
  | mapperIngestError (reasonCode : PyStr)
  | runtimeError (message : PyStr)
  | typeError
  | attributeError
  | keyError
  | osError
  | unicodeDecodeError
  | unicodeEncodeError
  | other (name : PyStr) (handled : Bool)
deriving DecidableEq

/-- What the Dev CLI answers: the dictionary `result`, another value, or an exception with its text. -/
inductive NativeAnswer
  | returned (result : JsonObject)
  | malformed
  | raised (x : Raised) (message : PyStr)

/-- What the processor finds around it: where a relative path leads, whether that is inside the root,
whether the file can be replaced, and what the Dev CLI makes of the files of a change set. -/
structure Workshop where
  locate : PyStr → PyStr
  inside : PyStr → Bool
  replaceable : PyStr → Bool
  native : Option (Bool → List PyStr → Files → NativeAnswer × Files)

structure PreparedChange where
  path : PyStr
  relative : PyStr
  expectedSha256 : PyStr
  original : Bytes
  updated : Bytes
  replacements : ℕ

/-- `hashlib.sha256(b).hexdigest()`. -/
def sha256 (b : Bytes) : PyStr := PyStr.ofChars (Sha256.hexdigest b)

/-- The files with another content at a path. -/
def put (files : Files) (path : PyStr) (content : Bytes) : Files := fun p =>
  if p = path then some content else files p

/-! ## Preparing -/

/-- `value.get(key)`. -/
def getField (value : Json) (key : PyStr) : Except Raised (Option Json) :=
  match value with
  | .obj fields => .ok (Dict.find fields key)
  | _ => .error .attributeError

/-- A line replacement. -/
structure Replacement where
  start : ℤ
  stop : ℤ
  content : PyStr
deriving DecidableEq

/-- Whether the replacement stands before the other one in `sort(reverse=True)`. -/
def Replacement.Before (a b : Replacement) : Prop :=
  b.start < a.start ∨ b.start = a.start ∧ (b.stop < a.stop ∨ b.stop = a.stop ∧ b.content ≤ a.content)

instance : DecidableRel Replacement.Before := fun a b => by
  unfold Replacement.Before
  infer_instance

/-- The value of an integer; `True` and `False` are integers. -/
def asInt? : Option Json → Option ℤ
  | some (.int n) => some n
  | some (.bool b) => some (if b then 1 else 0)
  | _ => none

def asStr? : Option Json → Option PyStr
  | some (.str s) => some s
  | _ => none

/-- The replacement, when its fields have their types and its lines are there. -/
def readReplacement (relative : PyStr) (lineCount : ℕ) (value : Json) : Except Raised Replacement := do
  let start ← getField value "start_line"
  let stop ← getField value "end_line"
  let content ← getField value "content"
  match asInt? start, asInt? stop, asStr? content with
  | some start, some stop, some content =>
    if 1 ≤ start ∧ start ≤ stop ∧ stop ≤ lineCount then .ok ⟨start, stop, content⟩
    else .error (.valueError ("invalid line replacement for " ++ relative))
  | _, _, _ => .error (.valueError ("invalid line replacement for " ++ relative))

/-- The lines that a replacement puts in. -/
def newLines (newline : PyStr) (content : PyStr) : PyStr :=
  let canonicalContent := PyStr.replace "\n" newline (PyStr.normalizeNewlines content)
  if canonicalContent ≠ [] ∧ ¬ newline.isSuffixOf canonicalContent then canonicalContent ++ newline
  else canonicalContent

/-- The loop over the sorted replacements; `previous` is the first line of the one before. -/
def replaceLines (relative newline : PyStr) :
    Option ℤ → List Replacement → List PyStr → Except Raised (List PyStr)
  | _, [], lines => .ok lines
  | previous, r :: rs, lines =>
    if previous.any (· ≤ r.stop) then
      .error (.valueError ("overlapping replacements for " ++ relative))
    else replaceLines relative newline (some r.start) rs
      (lines.take (r.start - 1).toNat ++ newLines newline r.content :: lines.drop r.stop.toNat)

def newlineOf (original : Bytes) : PyStr :=
  if original.tails.any fun t => (PyStr.asciiBytes "\r\n").isPrefixOf t then "\r\n" else "\n"

example : newlineOf (PyStr.asciiBytes "a\r\nb\n") = ("\r\n" : PyStr) := by decide +kernel

/-- The content with the replacements made. -/
def updatedContent (relative : PyStr) (original : Bytes) (replacements : List Json) :
    Except Raised Bytes := do
  match PyStr.decode original with
  | none => .error .unicodeDecodeError
  | some decoded => do
    let lines := PyStr.splitLines decoded
    let normalized ← replacements.mapM (readReplacement relative lines.length)
    let lines ← replaceLines relative (newlineOf original) none
      (normalized.insertionSort Replacement.Before) lines
    match PyStr.encode lines.flatten with
    | some updated => .ok updated
    | none => .error .unicodeEncodeError

def requireReplacements (relative : PyStr) : Option Json → Except Raised (List Json)
  | some (.arr (r :: rs)) => .ok (r :: rs)
  | _ => .error (.valueError ("change requires replacements: " ++ relative))

/-- The path and the expected digest of a change. -/
def requirePath (path expected : Option Json) : Except Raised (PyStr × PyStr) :=
  match asStr? path, asStr? expected with
  | some path, some expected => .ok (path, expected)
  | _, _ => .error (.valueError "each change requires path and expected_sha256")

/-- `path.read_bytes()`. -/
def readBytes (files : Files) (path : PyStr) : Except Raised Bytes :=
  match files path with
  | some content => .ok content
  | none => .error .osError

/-- The check of a condition that raises `ValueError`. -/
def require (condition : Bool) (message : PyStr) : Except Raised Unit :=
  if condition then .ok () else .error (.valueError message)

theorem require_eq_ok_iff {condition : Bool} {message : PyStr} {u : Unit} :
    require condition message = .ok u ↔ condition = true := by
  cases condition with
  | false =>
    constructor
    · intro h
      cases h
    · intro h
      cases h
  | true => exact iff_of_true rfl rfl

variable (w : Workshop) (files : Files)

/-- One turn of the loop of `_prepare_changes`. -/
def prepareChange (change : Json) : Except Raised PreparedChange := do
  let path ← getField change "path"
  let expected ← getField change "expected_sha256"
  let replacements ← getField change "replacements"
  let (relative, expected) ← requirePath path expected
  require (w.inside (w.locate relative)) ("change path escapes root: " ++ relative)
  let original ← readBytes files (w.locate relative)
  require (sha256 original = expected) ("stale source hash for " ++ relative)
  let replacements ← requireReplacements relative replacements
  let updated ← updatedContent relative original replacements
  return ⟨w.locate relative, relative, expected, original, updated, replacements.length⟩

def prepareChanges (changes : List Json) : Except Raised (List PreparedChange) :=
  changes.mapM (prepareChange w files)

/-! ## Writing -/

/-- `_atomic_replace`, of the files that the processor writes. -/
def atomicReplace (path : PyStr) (content : Bytes) : Except Raised Files :=
  if w.replaceable path then .ok (put files path content) else .error .osError

/-- The files after the changes that have been written are taken back, the last one first. -/
def takeBack (files : Files) (applied : List PreparedChange) : Files :=
  applied.foldl (fun files item => put files item.path item.original) files

/-- The check of `_write_prepared` before a file is replaced, and the replacement. -/
def writeItem (item : PreparedChange) : Except Raised Files := do
  let current ← readBytes files item.path
  require (current = item.original) ("stale source hash for " ++ item.relative)
  atomicReplace w files item.path item.updated

/-- The loop of `_write_prepared`; `applied` are the changes written so far, the last one first. -/
def writeFrom (files : Files) (applied : List PreparedChange) :
    List PreparedChange → Except Raised Unit × Files
  | [] => (.ok (), files)
  | item :: rest => match writeItem w files item with
    | .error x => (.error x, takeBack files applied)
    | .ok files => writeFrom files (item :: applied) rest

def writePrepared (prepared : List PreparedChange) : Except Raised Unit × Files :=
  writeFrom w files [] prepared

/-- One turn of the loop of `_restore_prepared`. -/
def restoreItem (item : PreparedChange) : Except Raised (Bool × Files) := do
  let current ← readBytes files item.path
  if current = item.original then return (false, files)
  else do
    let files ← atomicReplace w files item.path item.original
    return (true, files)

/-- The loop of `_restore_prepared`; `restored` are the paths restored so far. -/
def restoreFrom (files : Files) (restored : List PyStr) :
    List PreparedChange → Except Raised (List PyStr) × Files
  | [] => (.ok restored, files)
  | item :: rest => match restoreItem w files item with
    | .error x => (.error x, files)
    | .ok (changed, files) =>
      restoreFrom files (if changed then restored ++ [item.relative] else restored) rest

def restorePrepared (prepared : List PreparedChange) : Except Raised (List PyStr) × Files :=
  restoreFrom w files [] prepared

/-! ## Receipts -/

/-- A record of a file. -/
structure FileRecord where
  path : PyStr
  replacements : ℕ
  expectedSha256 : PyStr
  beforeSha256 : PyStr
  afterSha256 : PyStr
  resultSha256 : PyStr
  newline : PyStr

def fileRecord (item : PreparedChange) : Except Raised FileRecord := do
  let current ← readBytes files item.path
  return ⟨item.relative, item.replacements, item.expectedSha256, sha256 item.original, sha256 current,
    sha256 item.updated, if newlineOf item.updated = "\r\n" then "crlf" else "lf"⟩

def fileRecords (prepared : List PreparedChange) : Except Raised (List FileRecord) :=
  prepared.mapM (fileRecord files)

/-- The parts of an apply receipt that depend on what happened. -/
structure ApplyReceipt where
  mode : PyStr
  executor : PyStr
  files : List FileRecord
  outcome : PyStr
  applied : Bool
  reasonCode : Option PyStr
  restoredPaths : List PyStr

/-- `_receipt`, for a write or a dry run that came to its end. -/
def receiptOf (write : Bool) (executor : PyStr) (records : List FileRecord) (reasonCode : Option PyStr)
    (restoredPaths : List PyStr) : ApplyReceipt where
  mode := if write then "write" else "dry-run"
  executor := executor
  files := records
  outcome := if write then "applied" else "dry_run"
  applied := write
  reasonCode := reasonCode
  restoredPaths := restoredPaths

/-- The digest that a file is to have after the change that is the last one of its relative path. -/
def expectedAfter (write : Bool) (prepared : List PreparedChange) (relative : PyStr) : Option PyStr :=
  (prepared.reverse.find? fun item => item.relative = relative).map fun item =>
    sha256 (if write then item.updated else item.original)

/-- The part of `_fallback_receipt` behind the write. -/
def fallbackReceipt (write : Bool) (prepared : List PreparedChange) (reasonCode : PyStr)
    (restoredPaths : List PyStr) : Except Raised ApplyReceipt := do
  let records ← fileRecords files prepared
  if records.any fun r => some r.afterSha256 ≠ expectedAfter write prepared r.path then
    .error (.runtimeError "internal fallback produced an unexpected output hash")
  else .ok (receiptOf write "internal-bootstrap" records (some reasonCode) restoredPaths)

/-- `_fallback_receipt`. -/
def fallback (write : Bool) (prepared : List PreparedChange) (reasonCode : PyStr)
    (restoredPaths : List PyStr) : Except Raised ApplyReceipt × Files :=
  if write then match writePrepared w files prepared with
    | (.error x, files) => (.error x, files)
    | (.ok (), files) => (fallbackReceipt files write prepared reasonCode restoredPaths, files)
  else (fallbackReceipt files write prepared reasonCode restoredPaths, files)

/-! ## The Dev CLI -/

def nativeSucceeded (write : Bool) (result : JsonObject) : Bool :=
  asStr? (result.toJson.get? "status") = some ("ok" : PyStr) &&
    (match result.toJson.get? "errors" with
      | some (.arr (_ :: _)) => false
      | _ => true) &&
    !(write && match result.toJson.get? "applied" with
      | some (.bool false) => true
      | _ => false)

/-- The result of the Dev CLI, or the code with which it refused; a stale source hash is raised. -/
def delegated : NativeAnswer → Except Raised (JsonObject ⊕ PyStr)
  | .returned result => .ok (.inl result)
  | .malformed => .ok (.inr "invalid_native_receipt")
  | .raised x message =>
    match x with
    | .valueError _ =>
      if PyStr.contains "stale source hash" message then .error x else .ok (.inr "native_adapter_error")
    | _ => .ok (.inr "native_adapter_error")

def refusalCode (result : JsonObject) : PyStr :=
  match asStr? (result.toJson.get? "code") with
  | some (c :: cs) => c :: cs
  | _ => "native_adapter_refused"

/-- The part of `apply_changeset` after the Dev CLI has refused. -/
def refused (write : Bool) (prepared : List PreparedChange) (code : PyStr) :
    Except Raised ApplyReceipt × Files :=
  match fileRecords files prepared with
  | .error x => (.error x, files)
  | .ok _ => match restorePrepared w files prepared with
    | (.error x, files) => (.error x, files)
    | (.ok restored, files) => match fileRecords files prepared with
      | .error x => (.error x, files)
      | .ok records =>
        if records.any fun r => r.afterSha256 ≠ r.beforeSha256 then
          (.error (.runtimeError "native refusal could not be rolled back safely"), files)
        else fallback w files write prepared code restored

/-- Whether a file does not have the digest that it is to have after the Dev CLI. -/
def differs (write : Bool) (r : FileRecord) : Bool :=
  r.afterSha256 ≠ if write then r.resultSha256 else r.beforeSha256

/-- The part of `apply_changeset` after the Dev CLI has succeeded. -/
def succeeded (write : Bool) (prepared : List PreparedChange) : Except Raised ApplyReceipt × Files :=
  match fileRecords files prepared with
  | .error x => (.error x, files)
  | .ok after =>
    if after.any (differs write) then match restorePrepared w files prepared with
      | (.error x, files) => (.error x, files)
      | (.ok _, files) => refused w files write prepared "native_output_hash_mismatch"
    else (.ok (receiptOf write "simplicio-dev-cli" after none []), files)

/-- The part of `apply_changeset` after the Dev CLI has answered. -/
def answered (write : Bool) (prepared : List PreparedChange) (answer : NativeAnswer) :
    Except Raised ApplyReceipt × Files :=
  match delegated answer with
  | .error x => (.error x, files)
  | .ok (.inr code) => refused w files write prepared code
  | .ok (.inl result) =>
    if nativeSucceeded write result then succeeded w files write prepared
    else refused w files write prepared (refusalCode result)

/-- The part of `apply_changeset` behind `_prepare_changes`. -/
def applyPrepared (write : Bool) (prepared : List PreparedChange) : Except Raised ApplyReceipt × Files :=
  match w.native with
  | none => fallback w files write prepared "native_unavailable" []
  | some native =>
    let r := native write (prepared.map PreparedChange.path) files
    answered w r.2 write prepared r.1

/-- `apply_changeset`, of the changes of a change set that has the right schema. -/
def applyChangeset (write : Bool) (changes : List Json) : Except Raised ApplyReceipt × Files :=
  match prepareChanges w files changes with
  | .error x => (.error x, files)
  | .ok prepared => applyPrepared w files write prepared

end Delivery

end SimplicioFast
