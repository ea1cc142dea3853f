import SimplicioFast.ChangeSet.Basic
import SimplicioFast.Lib.JsonBytes

/-!
# The file of the change-set journal

`BinaryChangeJournal` is a file with a nine-byte header and one frame for each record: the length of the record's text,
the text, and the record's hash as bytes.  A record carries the hash of the record before it, and `read` checks the
chain and the authority of every record.

A record that is read is any JSON object; what `read` has checked of it is all that later code relies on.
-/

namespace SimplicioFast

/-- The worktree, lease and fencing token of a journal. -/
structure JournalAuthority where
  worktreeId : PyStr
  leaseId : PyStr
  fencingToken : PyStr
  worktree : ChangeSet.isWorktree worktreeId = true

namespace JournalFile

open ChangeSet

/-- `JOURNAL_MAGIC + b"\x01"`. -/
def header : Bytes := PyStr.asciiBytes "SFBJRN01" ++ [1]

def ZERO_HASH : PyStr := PyStr.ofChars (List.replicate 64 '0')

/-! ## Records -/

/-- A record that `append` builds: its entries before the hash, and the hash as bytes. -/
structure NewRecord where
  material : List (PyStr × Json)
  hash : Bytes

namespace NewRecord

def recordHash (r : NewRecord) : PyStr := PyStr.ofChars (Bytes.hex r.hash)

def toJson (r : NewRecord) : Json := .obj (r.material ++ [(("record_hash" : PyStr), .str r.recordHash)])

def payload (r : NewRecord) : Bytes := PyStr.encodeAscii (r.toJson.dumps true)

end NewRecord

def frame (r : NewRecord) : Bytes := Bytes.packBE 4 r.payload.length ++ r.payload ++ r.hash

/-! ## Reading -/

/-- The entry of a record under a key equals the text, as `event.get(key) == text`. -/
def entryIs (event : Json) (key text : PyStr) : Bool :=
  match event.get? key with
  | some v => v.pyEq (.str text)
  | none => false

/-- `events[-1]["record_hash"]`, or the zero hash; a record that was read holds a text there. -/
def lastHash (events : List Json) : PyStr :=
  match events.getLast? with
  | none => ZERO_HASH
  | some event => match event.get? "record_hash" with
    | some (.str s) => s
    | _ => []

/-- The entries that the record hash covers. -/
def materialOf (fs : List (PyStr × Json)) : Json := .obj (fs.filter fun f => f.1 ≠ "record_hash")

/-- The checks of a record against the hash in its frame, the records before it and the authority. -/
def checkRecord (a : JournalAuthority) (events : List Json) (supplied : PyStr) (event : Json) :
    Except ChangeSetRaised Unit :=
  match event with
  | .obj fs => do
    let previous := lastHash events
    let text ← ChangeSet.canonical (materialOf fs)
    let expected := sha256 (PyStr.encodeAscii previous ++ text)
    if supplied = expected ∧ entryIs event "record_hash" supplied ∧ entryIs event "prev_hash" previous then
      if entryIs event "worktree_id" a.worktreeId ∧ entryIs event "lease_id" a.leaseId ∧
          entryIs event "fencing_token" a.fencingToken then .ok ()
      else .error (.reason "journal_authority_mismatch")
    else .error (.reason "journal_chain_mismatch")
  | _ => .error .attributeError

def parseRecord (body : Bytes) : Except ChangeSetRaised Json :=
  match Json.loadsBytes body with
  | .ok event => .ok event
  | .error .jsonDecodeError => .error (.reason "journal_record_invalid")
  | .error .unicodeDecodeError => .error .unicodeDecodeError

/-- What `read` does with a frame that is not complete. -/
def tornTail (recover : Bool) (events : List Json) : Except ChangeSetRaised (List Json) :=
  if recover then .ok events else .error (.reason "journal_truncated_tail")

/-- The loop of `read` over the bytes behind the header. -/
def readFrom (a : JournalAuthority) (recover : Bool) (events : List Json) (raw : Bytes) :
    Except ChangeSetRaised (List Json) :=
  if raw = [] then .ok events
  else if raw.length < 4 then tornTail recover events
  else
    let length := Bytes.unpackBE (raw.take 4)
    let behind := raw.drop 4
    if behind.length < length + 32 then tornTail recover events
    else do
      let event ← parseRecord (behind.take length)
      checkRecord a events (PyStr.ofChars (Bytes.hex ((behind.drop length).take 32))) event
      readFrom a recover (events ++ [event]) (behind.drop (length + 32))
termination_by raw.length
decreasing_by
  rw [List.length_drop, List.length_drop]
  omega

/-- `read`; the file is absent or holds the given bytes. -/
def read (a : JournalAuthority) (file : Option Bytes) (recover : Bool) : Except ChangeSetRaised (List Json) :=
  match file with
  | none => .ok []
  | some raw =>
    if header.isPrefixOf raw then readFrom a recover [] (raw.drop header.length)
    else .error (.reason "journal_header_invalid")

/-! ## Appending -/

/-- The arguments of `append`. -/
structure Entry where
  changeset : BinaryChangeSet
  state : PyStr
  evidence : JsonObject

/-- The change set belongs to the journal. -/
def Bound (a : JournalAuthority) (c : BinaryChangeSet) : Prop :=
  c.worktreeId = a.worktreeId ∧ c.leaseId = a.leaseId ∧ c.fencingToken = a.fencingToken

/-- The checks of `append` against the authority. -/
def checkAuthority (a : JournalAuthority) (c : BinaryChangeSet) : Except ChangeSetRaised Unit :=
  if c.worktreeId ≠ a.worktreeId then .error (.reason "cross_worktree")
  else if c.leaseId ≠ a.leaseId then .error (.reason "lease_mismatch")
  else if c.fencingToken ≠ a.fencingToken then .error (.reason "fence_mismatch")
  else .ok ()

/-- Whether a record holds the state for the change set. -/
def holdsState (id state : PyStr) (event : Json) : Bool := entryIs event "changeset_id" id && entryIs event "state" state

/-- The entries of a new record before its hash. -/
def material (a : JournalAuthority) (events : List Json) (id binarySha256 state : PyStr) (evidence : JsonObject) :
    List (PyStr × Json) :=
  [("schema", .str "simplicio.fast.binary-changeset-journal/v1"), ("sequence", .int (events.length + 1)),
    ("changeset_id", .str id), ("binary_sha256", .str binarySha256), ("worktree_id", .str a.worktreeId),
    ("lease_id", .str a.leaseId), ("fencing_token", .str a.fencingToken), ("state", .str state),
    ("prev_hash", .str (lastHash events)), ("evidence", evidence.toJson)]

def sealRecord (previous : PyStr) (material : List (PyStr × Json)) : Except ChangeSetRaised NewRecord := do
  let text ← ChangeSet.canonical (.obj material)
  return ⟨material, Sha256.digest (PyStr.encodeAscii previous ++ text)⟩

/-- What `append` returns: a record that holds the state already, or the record that was added. -/
inductive Appended
  | found (event : Json)
  | added (record : NewRecord)

/-- The dictionary that `append` returns. -/
def Appended.value : Appended → Json
  | .found (.obj fs) => .obj (Dict.setEntries "idempotent" (.bool true) fs)
  | .found event => event
  | .added record => record.toJson

/-- `append` up to the write. -/
def prepare (codecs : Codecs) (a : JournalAuthority) (file : Option Bytes) (entry : Entry) :
    Except ChangeSetRaised Appended := do
  checkAuthority a entry.changeset
  let events ← read a file false
  let id ← entry.changeset.changesetId codecs
  match events.find? (holdsState id entry.state) with
  | some event => return .found event
  | none => do
    let binary ← entry.changeset.encode codecs
    let record ← sealRecord (lastHash events) (material a events id (sha256 binary) entry.state entry.evidence)
    return .added record

/-- `append`: the file afterwards, and what it returns. -/
def append (codecs : Codecs) (a : JournalAuthority) (file : Option Bytes) (entry : Entry) :
    Option Bytes × Except ChangeSetRaised Appended :=
  match prepare codecs a file entry with
  | .error x => (file, .error x)
  | .ok (.found event) => (file, .ok (.found event))
  | .ok (.added record) =>
    -- the header is written before the length of the record is packed
    if record.payload.length < 2 ^ 32 then (some (file.getD header ++ frame record), .ok (.added record))
    else (some (file.getD header), .error .structError)

/-! ## Recovery -/

/-- What `recover` returns. -/
structure Recovery where
  status : PyStr
  records : ℕ
  truncatedBytes : ℕ
  lastHash : Option PyStr

/-- `recover`: the file afterwards, and the report. -/
def recover (a : JournalAuthority) (file : Option Bytes) : Option Bytes × Except ChangeSetRaised Recovery :=
  match file with
  | none => (none, .ok ⟨"valid", 0, 0, none⟩)
  | some raw => match read a file true with
    | .error x => (file, .error x)
    | .ok events => match events.mapM ChangeSet.canonical with
      | .error x => (file, .error x)
      | .ok payloads =>
        let validEnd := header.length + (payloads.map fun payload => 4 + payload.length + 32).sum
        let truncated := raw.length - validEnd
        if truncated ≠ 0 then
          (some (raw.take validEnd), .ok ⟨"recovered", events.length, truncated, some (lastHash events)⟩)
        else (file, .ok ⟨"valid", events.length, truncated, some (lastHash events)⟩)

end JournalFile

end SimplicioFast
