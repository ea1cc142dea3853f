import SimplicioFast.Lib.Base64
import SimplicioFast.Lib.JsonParse
import SimplicioFast.Lib.Lines
import SimplicioFast.Lib.Machine
import SimplicioFast.Lib.Sha256

/-!
# Binary change sets

A change set is a list of create, replace-range, rename and delete operations, bound to a repository,
a worktree, a lease and a fencing token.  Its id is the digest of its canonical JSON text.

The codecs that Python finds by name are a parameter: a name that is not registered raises
`LookupError`, and a registered codec may reject what it is given.
-/

namespace SimplicioFast

/-- The exceptions that the change-set functions raise. -/
inductive ChangeSetRaised
  | changeSetError (reasonCode detail : PyStr)
  | unknownEffect (reasonCode : PyStr)
  | lookupError
  | unicodeEncodeError
  | unicodeDecodeError
  | attributeError
  | typeError
  | structError
  | osError
deriving DecidableEq

namespace ChangeSetRaised

/-- `BinaryChangeSetError(reason_code)`. -/
def reason (reasonCode : PyStr) : ChangeSetRaised := .changeSetError reasonCode []

/-- The attribute `reason_code` and the text of a `BinaryChangeSetError`. -/
def describe? : ChangeSetRaised → Option (PyStr × PyStr)
  | .changeSetError reasonCode detail =>
    some (reasonCode, if detail = [] then reasonCode else reasonCode ++ ": " ++ detail)
  | .unknownEffect reasonCode => some (reasonCode, reasonCode)
  | _ => none

end ChangeSetRaised

/-- A registered codec; `none` stands for `UnicodeDecodeError` and `UnicodeEncodeError`. -/
structure Codec where
  decode : Bytes → Option PyStr
  encode : PyStr → Option Bytes

/-- The codec registry. -/
abbrev Codecs := PyStr → Option Codec

/-- A registry that knows UTF-8 under its usual name only. -/
def utf8Codecs : Codecs := fun name =>
  if name = "utf-8" then some ⟨PyStr.decode, PyStr.encode⟩ else none

/-- `b.decode(encoding)`, or none where it raises `UnicodeDecodeError`; the empty byte string is
decoded without a look at the registry. -/
def decodeBytes (codecs : Codecs) (encoding : PyStr) (b : Bytes) :
    Except ChangeSetRaised (Option PyStr) :=
  if b = [] then .ok (some [])
  else match codecs encoding with
    | none => .error .lookupError
    | some codec => .ok (codec.decode b)

/-- `s.encode(encoding)`. -/
def encodeText (codecs : Codecs) (encoding s : PyStr) : Except ChangeSetRaised Bytes :=
  match codecs encoding with
  | none => .error .lookupError
  | some codec => match codec.encode s with
    | some b => .ok b
    | none => .error .unicodeEncodeError

namespace ChangeSet

def SCHEMA : PyStr := "simplicio.fast.binary-changeset/v1"

def canonical (v : Json) : Except ChangeSetRaised Bytes :=
  if v.isFinite then .ok (PyStr.encodeAscii (v.dumps true))
  else .error (.reason "json_encoding_invalid")

/-- Whether `_worktree` accepts a name: one component of a path. -/
def isWorktree (value : PyStr) : Bool :=
  value ≠ [] && .scalar '/' ∉ value && value ≠ "." && value ≠ ".."

/-- `sha256` of bytes. -/
def sha256 (b : Bytes) : PyStr := PyStr.ofChars (Sha256.hexdigest b)

def normalizedSha (b : Bytes) : PyStr :=
  match PyStr.decode b with
  | none => sha256 b
  | some text => sha256 (text.normalizeNewlines.encode.getD [])

def matchesHash (b : Bytes) (expected : Option PyStr) : Bool :=
  expected = some (sha256 b) || expected = some (normalizedSha b)

end ChangeSet

/-- `OP_TYPES`. -/
inductive OpType
  | create
  | replaceRange
  | rename
  | delete
deriving DecidableEq

namespace OpType

def name : OpType → PyStr
  | create => "create"
  | replaceRange => "replace-range"
  | rename => "rename"
  | delete => "delete"

end OpType

/-- A line map: one-based line numbers, both ends included. -/
structure LineMap where
  startLine : ℕ
  endLine : ℕ
  one_le : 1 ≤ startLine
  le : startLine ≤ endLine

namespace LineMap

def toJson (m : LineMap) : Json :=
  .obj [("start_line", .int m.startLine), ("end_line", .int m.endLine)]

end LineMap

/-- One operation, with the fields that `from_dict` fills in. -/
structure ChangeOperation where
  op : OpType
  path : PyStr
  beforeSha256 : Option PyStr := none
  afterSha256 : Option PyStr := none
  dest : Option PyStr := none
  contentB64 : Option PyStr := none
  encoding : Option PyStr := none
  lineMap : Option LineMap := none
  lineMapSha256 : Option PyStr := none

namespace ChangeOperation

def content (o : ChangeOperation) : Option Bytes := o.contentB64.bind Base64.decode

/-- What `from_dict` has checked of the operation that it returns. -/
structure Accepted (o : ChangeOperation) : Prop where
  content : o.contentB64.isSome → o.content.isSome
  create : o.op = .create → o.contentB64.isSome ∧ o.afterSha256.isSome
  replaceRange : o.op = .replaceRange → o.contentB64.isSome ∧ o.beforeSha256.isSome ∧
    o.afterSha256.isSome ∧ o.encoding.isSome ∧ o.lineMap.isSome
  rename : o.op = .rename → o.beforeSha256.isSome ∧ o.afterSha256.isSome ∧
    ∃ dest, o.dest = some dest ∧ dest ≠ o.path
  delete : o.op = .delete → o.beforeSha256.isSome

/-- `operation.dest or ""`. -/
def destPath (o : ChangeOperation) : PyStr := o.dest.getD []

/-- The paths that an operation names, in the order in which the source visits them. -/
def paths (o : ChangeOperation) : List PyStr := o.path :: o.dest.toList

/-- An entry of a dictionary that is left out for `None`. -/
def entry (key : PyStr) (value : Option Json) : List (PyStr × Json) :=
  (value.map fun v => (key, v)).toList

/-- The decoded content that `to_dict` adds when it can be decoded. -/
def decodedContent (codecs : Codecs) (o : ChangeOperation) :
    Except ChangeSetRaised (Option PyStr) :=
  match o.content with
  | none => .ok none
  | some b => decodeBytes codecs (o.encoding.getD "utf-8") b

def toDict (codecs : Codecs) (o : ChangeOperation) : Except ChangeSetRaised Json := do
  let content ← o.decodedContent codecs
  return .obj (entry "op" (some (.str o.op.name)) ++ entry "path" (some (.str o.path)) ++
    entry "before_sha256" (some (Json.optStr o.beforeSha256)) ++
    entry "after_sha256" (some (Json.optStr o.afterSha256)) ++
    entry "dest" (o.dest.map .str) ++ entry "content_b64" (o.contentB64.map .str) ++
    entry "content" (content.map .str) ++ entry "encoding" (o.encoding.map .str) ++
    entry "line_map" (o.lineMap.map LineMap.toJson) ++
    entry "line_map_sha256" (o.lineMap.map fun _ => Json.optStr o.lineMapSha256))

end ChangeOperation

/-- A change set. -/
structure BinaryChangeSet where
  repository : PyStr
  baseGeneration : PyStr
  overlayGeneration : PyStr
  attempt : PyStr
  worktreeId : PyStr
  leaseId : PyStr
  fencingToken : PyStr
  allowedPaths : List PyStr
  operations : List ChangeOperation
  verificationCommands : List PyStr
  accepted : ∀ o ∈ operations, o.Accepted
  operations_ne_nil : operations ≠ []

namespace BinaryChangeSet

open ChangeSet

variable (codecs : Codecs) (c : BinaryChangeSet)

/-- The fields of `identity`. -/
def identityFields : Except ChangeSetRaised (List (PyStr × Json)) := do
  let operations ← c.operations.mapM fun o => o.toDict codecs
  return [("schema", .str SCHEMA), ("repository", .str c.repository),
    ("base_generation", .str c.baseGeneration), ("overlay_generation", .str c.overlayGeneration),
    ("attempt", .str c.attempt), ("worktree_id", .str c.worktreeId), ("lease_id", .str c.leaseId),
    ("fencing_token", .str c.fencingToken), ("allowed_paths", .arr (c.allowedPaths.map .str)),
    ("operations", .arr operations),
    ("verification_commands", .arr (c.verificationCommands.map .str))]

def identity : Except ChangeSetRaised Json := do
  return .obj (← c.identityFields codecs)

def changesetId : Except ChangeSetRaised PyStr := do
  let b ← ChangeSet.canonical (← c.identity codecs)
  return sha256 b

def toDict : Except ChangeSetRaised Json := do
  let fields ← c.identityFields codecs
  let id ← c.changesetId codecs
  return .obj (fields ++ ChangeOperation.entry "changeset_id" (some (.str id)))

/-- `struct.pack(">I", n)`. -/
def packU32 (n : ℕ) : Except ChangeSetRaised Bytes :=
  if n < 2 ^ 32 then .ok (Bytes.packBE 4 n) else .error .structError

/-- The frame of one operation: its length, its canonical text and the digest of the text. -/
def frame (o : ChangeOperation) : Except ChangeSetRaised Bytes := do
  let payload ← ChangeSet.canonical (← o.toDict codecs)
  return (← packU32 payload.length) ++ payload ++ Sha256.digest payload

def encode : Except ChangeSetRaised Bytes := do
  let metadata ← ChangeSet.canonical (← c.toDict codecs)
  let records := (← c.operations.mapM (frame codecs)).flatten
  return PyStr.asciiBytes "SFBCHG01" ++ [1, 0] ++ (← packU32 metadata.length) ++
    (← packU32 c.operations.length) ++ (← packU32 records.length) ++
    Sha256.digest (metadata ++ records) ++ metadata ++ records

end BinaryChangeSet

end SimplicioFast
