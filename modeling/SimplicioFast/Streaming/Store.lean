import SimplicioFast.Lib.Blocks
import SimplicioFast.Lib.FileAppend
import SimplicioFast.Lib.JsonCanonical
import SimplicioFast.Lib.Sha256

/-!
# The streaming block store

`StreamingBlockStore.build` regroups a stream into blocks, appends them to a segment, and lists them in a checkpoint that
it replaces behind every block; at the end it publishes a manifest.  `readRange` and `readAll` read what is published.

What `int` makes of a text is a parameter (`intText`, with `none` for the `ValueError`); no file that the store writes
holds a text where a number is read.
-/

namespace SimplicioFast

namespace Streaming

open Crash FileSystem

/-- The exceptions of this module; `source` stands for what the iterator over the chunks raises. -/
inductive Raised
  | streamingStoreError (reasonCode message : PyStr)
  | runtimeError (message : PyStr)
  | os (e : OsError)
  | unicodeEncodeError
  | unicodeDecodeError
  | attributeError
  | keyError (key : PyStr)
  | typeError
  | valueError
  | overflowError
  | source
deriving DecidableEq

def SCHEMA : PyStr := "simplicio.fast.streaming-store/v1"

def MAX_BLOCK_BYTES : ℕ := 16 * 1024 * 1024

def MAX_RANGE_BYTES : ℕ := 64 * 1024 * 1024

/-- `raise StreamingStoreError`, unless the condition holds. -/
def check (condition : Bool) (reasonCode message : PyStr) : Except Raised Unit :=
  if condition then .ok () else .error (.streamingStoreError reasonCode message)

/-- `StreamingBlockStore`, with the directory that its constructor makes. -/
structure StreamingBlockStore where
  root : List PyStr

/-- `hashlib.sha256(payload).hexdigest()`. -/
def hexdigest (payload : Bytes) : PyStr := PyStr.ofChars (Sha256.hexdigest payload)

/-! ## Paths -/

/-- `os.fsencode`: a lone surrogate stands for the byte that it escapes. -/
def fsEncode : PyStr → Option Bytes
  | [] => some []
  | .scalar c :: s => (fsEncode s).map (PyStr.encodeCode c.toNat ++ ·)
  | .surrogate n :: s => if 0x480 ≤ n.val ∧ n.val < 0x500 then (fsEncode s).map (UInt8.ofNat (n.val - 0x400) :: ·) else none

/-- The name of a file as the operating system has it: its bytes, each of them as a character. -/
def osText (name : PyStr) : Except Raised PyStr :=
  match fsEncode name with
  | none => .error .unicodeEncodeError
  | some b => if 0 ∈ b then .error (.os .embeddedNull) else .ok (b.map fun x => .scalar (Char.ofNat x.toNat))

def parts (text : PyStr) : List PyStr := (text.splitOn (.scalar '/')).filter fun name => !isDot name

example : parts "a/./b//" = (["a", "b"] : List PyStr) := by decide +kernel

/-- `Path(text).name`. -/
def pathName (text : PyStr) : PyStr := (parts text).getLastD []

/-- Where a name leads from a directory. -/
def child (p : List PyStr) (name : PyStr) : List PyStr :=
  if isDot name then p else if name = ("..") then p.dropLast else p ++ [name]

/-- The file that `directory / text / name` denotes. -/
def fileAt (directory : List PyStr) (text name : PyStr) (fs : FileSystem) : Except Raised (List PyStr) := do
  let names ← (if name.head? = some (.scalar '/') then parts name else parts text ++ parts name).mapM osText
  let start := if text.head? = some (.scalar '/') || name.head? = some (.scalar '/') then [] else directory
  (fs.walk start names).mapError .os

/-- `checkpoint.json`. -/
def checkpointPath (work : List PyStr) : List PyStr := work ++ [("checkpoint.json" : PyStr)]

/-- `segment-000000.bin`. -/
def segmentPath (work : List PyStr) : List PyStr := work ++ [("segment-000000.bin" : PyStr)]

/-- `manifest.json`. -/
def manifestPath (work : List PyStr) : List PyStr := work ++ [("manifest.json" : PyStr)]

/-- `current.json`. -/
def currentPath (root : List PyStr) : List PyStr := root ++ [("current.json" : PyStr)]

/-- `path.with_suffix(path.suffix + ".tmp")`. -/
def temporaryOf (path : List PyStr) : List PyStr := path.dropLast ++ [path.getLastD [] ++ (".tmp" : PyStr)]

/-! ## JSON -/

def jsonBytes (value : Json) : Bytes := PyStr.encodeAscii (value.dumps true ++ ("\n" : PyStr))

def atomicJson (path : List PyStr) (value : Json) : Prog FileSystem Raised PUnit :=
  replace .os (temporaryOf path) path (jsonBytes value)

/-- `value.get(key)`. -/
def getAttr (value : Json) (key : PyStr) : Except Raised (Option Json) :=
  match value with
  | .obj fields => .ok (Dict.find fields key)
  | _ => .error .attributeError

/-- `value[key]`. -/
def subscript (value : Json) (key : PyStr) : Except Raised Json :=
  match value with
  | .obj fields => match Dict.find fields key with
    | some v => .ok v
    | none => .error (.keyError key)
  | _ => .error .typeError

/-- `isinstance(value, dict)`. -/
def isObject : Json → Bool
  | .obj _ => true
  | _ => false

/-- Whether `value.get(key)` is equal to another value. -/
def isEqual (value : Option Json) (other : Json) : Bool := (value.getD .null).pyEq other

/-- What a file holds, as JSON; `missing` is raised when there is no file, or no JSON in it. -/
def readJson (missing : Raised) (fs : FileSystem) (path : List PyStr) : Except Raised Json :=
  match fs.get? path with
  | none => .error missing
  | some .dir => .error (.os .isADirectory)
  | some (.file b) => match PyStr.decode b with
    | none => .error .unicodeDecodeError
    | some text => match Json.loads text with
      | none => .error missing
      | some value => .ok value

/-! ## Blocks -/

/-- What an iterator over chunks gives: bytes, something else, or an exception. -/
inductive Chunk
  | bytes (b : Bytes)
  | other
  | raises

/-- `_blocks`: the blocks that come, and what is raised behind them. -/
def blocks (blockBytes : ℕ) : Bytes → List Chunk → List Bytes × Option Raised
  | pending, [] => (Blocks.tail pending, none)
  | pending, .bytes chunk :: chunks =>
    ((Blocks.whole blockBytes (pending ++ chunk)).1 ++
        (blocks blockBytes (Blocks.whole blockBytes (pending ++ chunk)).2 chunks).1,
      (blocks blockBytes (Blocks.whole blockBytes (pending ++ chunk)).2 chunks).2)
  | _, .other :: _ => ([], some (.streamingStoreError "invalid_chunk" "stream chunks must be bytes"))
  | _, .raises :: _ => ([], some .source)

section

variable (intText : PyStr → Option ℤ)

/-- `int(value)`. -/
def intOf : Json → Except Raised ℤ
  | .int n => .ok n
  | .bool b => .ok (if b then 1 else 0)
  | .float d => .ok (if d.neg then -(d.digits / 10 ^ d.scale : ℕ) else (d.digits / 10 ^ d.scale : ℕ))
  | .nonFinite .nan => .error .valueError
  | .nonFinite _ => .error .overflowError
  | .str s => match intText s with
    | some n => .ok n
    | none => .error .valueError
  | _ => .error .typeError

/-! ## Building -/

/-- The fields of a checkpoint, and the list of its blocks. -/
structure Checkpoint where
  fields : List (PyStr × Json)
  blocks : List Json

def Checkpoint.toJson (c : Checkpoint) : Json := .obj (Dict.setEntries "blocks" (.arr c.blocks) c.fields)

/-- The error of `_load_checkpoint` for a file that is not there or not JSON. -/
def noCheckpoint : Raised := .streamingStoreError "invalid_checkpoint" "checkpoint is missing or malformed"

/-- The checks of `_load_checkpoint`. -/
def checkpointOf : Json → Except Raised Checkpoint
  | .obj fields =>
    match isEqual (Dict.find fields "schema") (.str SCHEMA), Dict.find fields "blocks" with
    | true, some (.arr blocks) => .ok ⟨fields, blocks⟩
    | _, _ => .error (.streamingStoreError "invalid_checkpoint" "checkpoint schema is invalid")
  | _ => .error .attributeError

def loadCheckpoint (fs : FileSystem) (path : List PyStr) : Except Raised Checkpoint := do
  let value ← readJson noCheckpoint fs path
  checkpointOf value

/-- The loop of `_validate_existing`: where the last block ends. -/
def validateBlocks (data : Bytes) : ℕ → ℕ → List Json → Except Raised ℕ
  | _, cursor, [] => .ok cursor
  | index, cursor, block :: blocks => do
    let stored ← getAttr block "index"
    check (isEqual stored (.int index)) "checkpoint_sequence" "checkpoint block sequence is invalid"
    let length ← (subscript block "length").bind (intOf intText)
    check (1 ≤ length && cursor + length ≤ data.length) "checkpoint_bounds" "checkpoint block is outside segment"
    let digest ← getAttr block "sha256"
    check (isEqual digest (.str (hexdigest (Bytes.slice data cursor (cursor + length.toNat)))))
      "checkpoint_digest" "checkpoint block digest is invalid"
    validateBlocks data (index + 1) (cursor + length.toNat) blocks

def validateExisting (fs : FileSystem) (work : List PyStr) (checkpoint : Checkpoint) : Except Raised Unit :=
  match fs.get? (segmentPath work) with
  | none => .error (.streamingStoreError "missing_segment" "checkpoint segment is missing")
  | some .dir => .error (.os .isADirectory)
  | some (.file data) => do
    let cursor ← validateBlocks intText data 0 0 checkpoint.blocks
    check (cursor = data.length) "segment_tail" "segment has bytes outside checkpoint"

/-- The checkpoint of a build that resumes. -/
def resumeCheckpoint (work : List PyStr) (generation : PyStr) (blockBytes : ℤ) (fs : FileSystem) :
    Except Raised Checkpoint := do
  let checkpoint ← loadCheckpoint fs (checkpointPath work)
  check (isEqual (Dict.find checkpoint.fields "generation") (.str generation) &&
    isEqual (Dict.find checkpoint.fields "block_bytes") (.int blockBytes))
    "checkpoint_mismatch" "checkpoint generation or block size differs"
  validateExisting intText fs work checkpoint
  return checkpoint

/-- The checkpoint of a build that starts. -/
def newCheckpoint (generation : PyStr) (blockBytes : ℤ) : Checkpoint where
  fields := [("schema", .str SCHEMA), ("generation", .str generation), ("block_bytes", .int blockBytes),
    ("input_bytes", .int 0), ("blocks", .arr [])]
  blocks := []

/-- A build that starts writes its checkpoint and empties the segment. -/
def startCheckpoint (work : List PyStr) (generation : PyStr) (blockBytes : ℤ) : Prog FileSystem Raised Checkpoint := do
  atomicJson (checkpointPath work) (newCheckpoint generation blockBytes).toJson
  write .os (segmentPath work) []
  return newCheckpoint generation blockBytes

/-- The variables of the loop over the blocks; `source` is what the digest of the source was updated with. -/
structure Progress where
  checkpoint : Checkpoint
  index : ℕ
  source : Bytes
  inputBytes : ℕ
  appended : ℕ

/-- The entry of a block in a checkpoint. -/
def entry (index : ℕ) (payload : Bytes) : Json :=
  .obj [("index", .int index), ("length", .int payload.length), ("sha256", .str (hexdigest payload))]

/-- The error for a source that differs from the checkpoint. -/
def sourceMismatch : Raised := .streamingStoreError "resume_source_mismatch" "source differs from checkpoint"

/-- A block of the source is compared with the one in the checkpoint. -/
def compareBlock (expected : Json) (payload : Bytes) : Except Raised Unit := do
  let length ← subscript expected "length"
  if (Json.int payload.length).pyEq length then do
    let digest ← subscript expected "sha256"
    if (Json.str (hexdigest payload)).pyEq digest then .ok () else .error sourceMismatch
  else .error sourceMismatch

/-- The checkpoint with one more block. -/
def Checkpoint.add (c : Checkpoint) (index : ℕ) (payload : Bytes) (inputBytes : ℕ) : Checkpoint where
  fields := Dict.setEntries "input_bytes" (.int inputBytes) c.fields
  blocks := c.blocks ++ [entry index payload]

/-- The end of the body of the loop for a block that was appended. -/
def failAfter (failAfterBlocks : Option ℤ) (appended : ℕ) : Except Raised Unit :=
  match failAfterBlocks with
  | some n => if n ≤ appended then .error (.runtimeError "injected_stream_failure") else .ok ()
  | none => .ok ()

/-- The body of the loop over the blocks. -/
def buildBlock (work : List PyStr) (failAfterBlocks : Option ℤ) (p : Progress) (payload : Bytes) :
    Prog FileSystem Raised Progress :=
  match p.checkpoint.blocks[p.index]? with
  | some expected => do
    Prog.read fun _ => (compareBlock expected payload).map fun _ => PUnit.unit
    return { p with
      index := p.index + 1, source := p.source ++ payload, inputBytes := p.inputBytes + payload.length }
  | none => do
    append (segmentPath work) payload
    let checkpoint := p.checkpoint.add p.index payload (p.inputBytes + payload.length)
    atomicJson (checkpointPath work) checkpoint.toJson
    Prog.read fun _ => (failAfter failAfterBlocks (p.appended + 1)).map fun _ => PUnit.unit
    return ⟨checkpoint, p.index + 1, p.source ++ payload, p.inputBytes + payload.length, p.appended + 1⟩

/-- `sum(int(item["length"]) for item in blocks)`. -/
def sumLengths : List Json → Except Raised ℤ
  | [] => .ok 0
  | item :: items => do
    let length ← (subscript item "length").bind (intOf intText)
    let rest ← sumLengths items
    return length + rest

def checkEnd (blockBytes : ℕ) (p : Progress) : Except Raised Unit := do
  check (p.checkpoint.blocks.length ≤ p.inputBytes / blockBytes + if p.inputBytes % blockBytes = 0 then 0 else 1)
    "checkpoint_ahead" "checkpoint has more blocks than source"
  let sum ← sumLengths intText p.checkpoint.blocks
  check (p.inputBytes = sum) "checkpoint_length" "checkpoint byte count is inconsistent"

def manifest (generation : PyStr) (blockBytes : ℤ) (p : Progress) : List (PyStr × Json) :=
  [("schema", .str SCHEMA), ("generation", .str generation), ("block_bytes", .int blockBytes),
    ("input_bytes", .int p.inputBytes), ("source_sha256", .str (hexdigest p.source)), ("blocks", .arr p.checkpoint.blocks),
    ("segment", .str "segment-000000.bin")]

/-- What `build` returns. -/
def published (manifest : List (PyStr × Json)) (appended : ℕ) : Json :=
  .obj (manifest ++ ([("status", .str "published"), ("appended_blocks", .int appended)] : List (PyStr × Json)))

/-- The manifest takes its places, and the checkpoint is removed. -/
def publish (root work : List PyStr) (m : Json) : Prog FileSystem Raised PUnit := do
  atomicJson (manifestPath work) m
  atomicJson (currentPath root) m
  unlink .os (checkpointPath work)

/-- The checks of the arguments: the name of the directory of the generation. -/
def checkArguments (generation : PyStr) (blockBytes : ℤ) : Except Raised PyStr := do
  check (generation ≠ [] && pathName generation = generation) "invalid_generation"
    "generation must be a simple path component"
  check (1 ≤ blockBytes && blockBytes ≤ MAX_BLOCK_BYTES) "invalid_block_size" "block size is outside supported bounds"
  osText generation

/-- `work.mkdir(parents=True, exist_ok=True)`; the directory above the root is there when the root is. -/
def makeWork (root : List PyStr) (name : PyStr) : Prog FileSystem Raised PUnit :=
  makedirs .os (if name = ("..") then root else child root name)

/-- The part of `build` behind the checkpoint, with the loop. -/
def buildFrom (root work : List PyStr) (chunks : List Chunk) (generation : PyStr) (blockBytes : ℤ)
    (failAfterBlocks : Option ℤ) (checkpoint : Checkpoint) : Prog FileSystem Raised Json := do
  openAppend .os (segmentPath work)
  let p ← (blocks blockBytes.toNat [] chunks).1.foldlM (buildBlock work failAfterBlocks) ⟨checkpoint, 0, [], 0, 0⟩
  Prog.read fun _ => match (blocks blockBytes.toNat [] chunks).2 with
    | some raised => .error raised
    | none => .ok PUnit.unit
  Prog.read fun _ => (checkEnd intText blockBytes.toNat p).map fun _ => PUnit.unit
  publish root work (.obj (manifest generation blockBytes p))
  return published (manifest generation blockBytes p) p.appended

def StreamingBlockStore.build (store : StreamingBlockStore) (chunks : List Chunk) (generation : PyStr) (blockBytes : ℤ)
    (resume : Bool) (failAfterBlocks : Option ℤ) : Prog FileSystem Raised Json := do
  let name ← Prog.read fun _ => checkArguments generation blockBytes
  makeWork store.root name
  let work := child store.root name
  let checkpoint ← match resume with
    | true => Prog.read (resumeCheckpoint intText work generation blockBytes)
    | false => startCheckpoint work generation blockBytes
  buildFrom intText store.root work chunks generation blockBytes failAfterBlocks checkpoint

/-! ## Reading -/

/-- `FileNotFoundError` becomes another error. -/
def orMissing {α : Type} (missing : Raised) : Except Raised α → Except Raised α
  | .error (.os .fileNotFound) => .error missing
  | r => r

/-- The bytes of a file, of which the path was found. -/
def contentAt (fs : FileSystem) (path : List PyStr) : Except Raised Bytes :=
  match fs.get? path with
  | none => .error (.os .fileNotFound)
  | some .dir => .error (.os .isADirectory)
  | some (.file b) => .ok b

/-- The error for a generation that was not published. -/
def missingManifest : Raised := .streamingStoreError "missing_manifest" "published generation is unavailable"

def loadManifest (store : StreamingBlockStore) (generation : PyStr) (fs : FileSystem) : Except Raised Json := do
  let path ← orMissing missingManifest (fileAt store.root generation "manifest.json" fs)
  readJson missingManifest fs path

/-- `int(block["length"])` in `read_range`. -/
def blockLength (block : Json) : Except Raised ℤ :=
  match (subscript block "length").bind (intOf intText) with
  | .error .overflowError => .error .overflowError
  | .error _ => .error (.streamingStoreError "invalid_manifest" "manifest block length is invalid")
  | .ok length => .ok length

def readPiece (data : Bytes) (start length cursor blockEnd : ℕ) (block : Json) : Except Raised Bytes :=
  if cursor < start + length ∧ start < blockEnd then do
    let payload := Bytes.slice data cursor blockEnd
    check (payload.length = blockEnd - cursor) "segment_bounds" "segment block is truncated"
    let digest ← getAttr block "sha256"
    check (isEqual digest (.str (hexdigest payload))) "block_digest" "stream block digest is invalid"
    return Bytes.slice payload (max start cursor - cursor) (min (start + length) blockEnd - cursor)
  else .ok []

/-- The loop of `read_range`: where it ends, and what was gathered. -/
def readBlocks (data : Bytes) (total start length : ℕ) : ℕ → Bytes → List Json → Except Raised (ℕ × Bytes)
  | cursor, result, [] => .ok (cursor, result)
  | cursor, result, block :: blocks => do
    check (isObject block) "invalid_manifest" "manifest block is invalid"
    let blockLength ← blockLength intText block
    check (1 ≤ blockLength && cursor + blockLength ≤ total) "invalid_manifest" "manifest block bounds are invalid"
    let blockEnd := cursor + blockLength.toNat
    let piece ← readPiece data start length cursor blockEnd block
    if start + length ≤ blockEnd then .ok (blockEnd, result ++ piece)
    else readBlocks data total start length blockEnd (result ++ piece) blocks

/-- The fields of a manifest that `read_range` accepts: the blocks and the name of the segment. -/
def rangeFields (m : Json) (start length : ℤ) : Except Raised (ℕ × List Json × PyStr) := do
  let invalid : Raised := .streamingStoreError "invalid_range" "range is outside the published generation"
  match m.get? "input_bytes", m.get? "blocks", m.get? "segment" with
  | some (.int total), some (.arr blocks), some (.str segment) =>
    if total < 0 ∨ pathName segment ≠ segment ∨ total < start + length then .error invalid
    else .ok (total.toNat, blocks, segment)
  | _, _, _ => .error invalid

def StreamingBlockStore.readRange (store : StreamingBlockStore) (generation : PyStr) (start length : ℤ) (fs : FileSystem) :
    Except Raised Bytes := do
  check (0 ≤ start && 0 ≤ length && length ≤ MAX_RANGE_BYTES) "invalid_range"
    "range must be non-negative integers within the bounded limit"
  let m ← loadManifest store generation fs
  check (isEqual (m.get? "schema") (.str SCHEMA)) "invalid_manifest" "published manifest schema is invalid"
  let (total, blocks, segment) ← rangeFields m start length
  if length = 0 then return []
  let data ← orMissing (.streamingStoreError "missing_segment" "published segment is unavailable")
    (do contentAt fs (← fileAt store.root generation segment fs))
  let (cursor, result) ← readBlocks intText data total start.toNat length.toNat 0 [] blocks
  check (start.toNat + length.toNat ≤ cursor && result.length = length.toNat) "segment_bounds"
    "range is outside the published segment"
  return result

end

/-- The name of the segment in `read_all`. -/
def segmentName (m : Json) : Except Raised PyStr :=
  match subscript m "segment" with
  | .error (.keyError _) => .error missingManifest
  | .error e => .error e
  | .ok (.str segment) => .ok segment
  | .ok _ => .error .typeError

/-- Whether the length and the digest in the manifest are those of the data. -/
def matchesManifest (m : Json) (data : Bytes) : Except Raised Bool := do
  let length ← subscript m "input_bytes"
  if (Json.int data.length).pyEq length then
    (subscript m "source_sha256").map fun digest => (Json.str (hexdigest data)).pyEq digest
  else .ok false

def StreamingBlockStore.readAll (store : StreamingBlockStore) (generation : PyStr) (fs : FileSystem) :
    Except Raised Bytes := do
  let m ← loadManifest store generation fs
  let segment ← segmentName m
  let data ← orMissing missingManifest (do contentAt fs (← fileAt store.root generation segment fs))
  let intact ← matchesManifest m data
  check intact "manifest_digest" "published generation digest is invalid"
  return data

end Streaming

end SimplicioFast
