import SimplicioFast.Lib.Lines
import SimplicioFast.Lib.Surrogates
import SimplicioFast.Prism.Base

/-!
# The source change journal

`ChangeJournal` is a file with a header line and one line for each event.  An event carries the hash of the event
before it and its own hash.  `read` checks the whole chain; with `recover` it leaves out a last line that has no line
feed, and the method `recover` cuts such a line off.

The fields of an event that is read can be any JSON values.  Bytes are decoded as UTF-8.
-/

namespace SimplicioFast

/-- The exceptions of the change journal. -/
inductive ChangeJournalRaised
  | changeJournalError (reason : PyStr)
  | unicodeDecodeError
deriving DecidableEq

structure ChangeEvent where
  sequence : Json
  eventType : Json
  path : Json
  generation : Json
  commit : Json
  beforeSha256 : Json
  afterSha256 : Json
  prevHash : Json
  recordHash : Json

namespace ChangeEvent

/-- The entries that the record hash covers. -/
def materialFields (e : ChangeEvent) : List (PyStr × Json) :=
  [("sequence", e.sequence), ("event_type", e.eventType), ("path", e.path), ("generation", e.generation),
    ("commit", e.commit), ("before_sha256", e.beforeSha256), ("after_sha256", e.afterSha256),
    ("prev_hash", e.prevHash)]

def material (e : ChangeEvent) : Json := .obj e.materialFields

/-- The entries of `asdict`. -/
def fields (e : ChangeEvent) : List (PyStr × Json) := e.materialFields ++ [(("record_hash" : PyStr), e.recordHash)]

def asdict (e : ChangeEvent) : Json := .obj e.fields

def toJson (e : ChangeEvent) : PyStr := e.asdict.dumps true

/-- `ChangeEvent(**value)`. -/
def ofValue (value : Json) : Option ChangeEvent := do
  match value with
  | .obj fs =>
    let sequence ← Dict.find fs "sequence"
    let eventType ← Dict.find fs "event_type"
    let path ← Dict.find fs "path"
    let generation ← Dict.find fs "generation"
    let commit ← Dict.find fs "commit"
    let beforeSha256 ← Dict.find fs "before_sha256"
    let afterSha256 ← Dict.find fs "after_sha256"
    let prevHash ← Dict.find fs "prev_hash"
    let recordHash ← Dict.find fs "record_hash"
    if fs.length = 9 then
      some ⟨sequence, eventType, path, generation, commit, beforeSha256, afterSha256, prevHash, recordHash⟩
    else none
  | _ => none

end ChangeEvent

namespace ChangeJournal

/-- `ChangeJournalError(reason)`. -/
def raised (reason : PyStr) : ChangeJournalRaised := .changeJournalError reason

def HEADER : Json := .obj [("schema", .str "simplicio.fast.change-journal/v1"), ("version", .int 1)]

def EVENT_TYPES : List PyStr := ["create", "update", "rename", "delete", "config", "schema"]

def ZERO_HASH : PyStr := PyStr.ofChars (List.replicate 64 '0')

def headerLine : Bytes := PyStr.encodeAscii (HEADER.dumps true) ++ [10]

def lineOf (e : ChangeEvent) : Bytes := PyStr.encodeAscii e.toJson ++ [10]

/-! ## Reading -/

def lastHash (events : List ChangeEvent) : Json :=
  match events.getLast? with
  | some e => e.recordHash
  | none => .str ZERO_HASH

/-- The hash that the event must have, when it names the hash before it. -/
def hashOf (prevHash : PyStr) (e : ChangeEvent) : PyStr :=
  PyStr.ofChars (Sha256.hexdigest (PyStr.encodeAscii (prevHash ++ e.material.dumps true)))

def verifyEvent (event : ChangeEvent) (previous : List ChangeEvent) : Except ChangeJournalRaised Unit :=
  if event.sequence.pyEq (.int (previous.length + 1)) && event.prevHash.pyEq (lastHash previous) then
    match event.prevHash with
    | .str prevHash =>
      if event.recordHash.pyEq (.str (hashOf prevHash event)) then .ok ()
      else .error (raised "record_hash_mismatch")
    | _ => .error (raised "chain_mismatch")
  else .error (raised "chain_mismatch")

def parseLine (line : Bytes) : Option ChangeEvent :=
  ((PyStr.decode line).bind Json.loads).bind ChangeEvent.ofValue

/-- The loop of `read` over the lines behind the header line. -/
def readLines (recover : Bool) (events : List ChangeEvent) (index : ℕ) :
    List Bytes → Except ChangeJournalRaised (List ChangeEvent)
  | [] => .ok events
  | line :: rest =>
    if line.getLast? ≠ some 10 then
      if recover && rest.isEmpty then .ok events else .error (raised "truncated_tail")
    else match parseLine line with
    | none => .error (raised (("record_invalid:" : PyStr) ++ PyStr.ofChars (Nat.toDigits 10 index)))
    | some event => do
      verifyEvent event events
      readLines recover (events ++ [event]) (index + 1) rest

def checkHeader (line : Bytes) : Except ChangeJournalRaised Unit :=
  match PyStr.decode line with
  | none => .error .unicodeDecodeError
  | some text => match Json.loads text with
    | none => .error (raised "header_invalid")
    | some header => if header.pyEq HEADER then .ok () else .error (raised "schema_mismatch")

/-- `read`; the file is absent or holds the given bytes. -/
def read (file : Option Bytes) (recover : Bool) : Except ChangeJournalRaised (List ChangeEvent) :=
  match file with
  | none => .ok []
  | some raw => match Bytes.splitLines raw with
    | [] => .error (raised "header_missing")
    | header :: lines => do
      checkHeader header
      readLines recover [] 1 lines

/-! ## Appending -/

/-- The arguments of `append`. -/
structure Entry where
  eventType : PyStr
  path : PyStr
  generation : PyStr
  commit : Option PyStr := none
  beforeSha256 : Option PyStr := none
  afterSha256 : Option PyStr := none

/-- `_sha`. -/
def checkSha : Option PyStr → Except ChangeJournalRaised (Option PyStr)
  | none => .ok none
  | some value =>
    if value.asciiCasefold.isSha256 then .ok (some value.asciiCasefold) else .error (raised "sha256_invalid")

/-- `_path`. -/
def checkPath (value : PyStr) : Except ChangeJournalRaised PyStr :=
  if value = [] ∨ value.head? = some (.scalar '/') ∨ (".." : PyStr) ∈ Prism.parts value then
    .error (raised "path_outside_repository")
  else .ok (PyStr.replace "\\" "/" value)

/-- The checks of `append`: the entry as it is recorded. -/
def checkEntry (entry : Entry) : Except ChangeJournalRaised Entry := do
  if entry.eventType ∉ EVENT_TYPES then .error (raised "event_type_invalid")
  else do
    let path ← checkPath entry.path
    let beforeSha256 ← checkSha entry.beforeSha256
    let afterSha256 ← checkSha entry.afterSha256
    return { entry with path := path, beforeSha256 := beforeSha256, afterSha256 := afterSha256 }

/-- The event of an entry behind the given ones, without its hash. -/
def draft (events : List ChangeEvent) (entry : Entry) : ChangeEvent where
  sequence := .int (events.length + 1)
  eventType := .str entry.eventType
  path := .str entry.path
  generation := .str entry.generation
  commit := Json.optStr entry.commit
  beforeSha256 := Json.optStr entry.beforeSha256
  afterSha256 := Json.optStr entry.afterSha256
  prevHash := lastHash events
  recordHash := .str []

def sealEvent (e : ChangeEvent) : ChangeEvent :=
  match e.prevHash with
  | .str prevHash => { e with recordHash := .str (hashOf prevHash e) }
  | _ => e

/-- `append`: the file afterwards, and the event. -/
def append (file : Option Bytes) (entry : Entry) : Option Bytes × Except ChangeJournalRaised ChangeEvent :=
  match checkEntry entry with
  | .error x => (file, .error x)
  | .ok checked => match read file false with
    | .error x => (file, .error x)
    | .ok events =>
      let event := sealEvent (draft events checked)
      (some (file.getD headerLine ++ lineOf event), .ok event)

/-! ## Recovery -/

/-- What `recover` returns. -/
structure Recovery where
  status : PyStr
  events : ℕ
  lastHash : Json

/-- `recover`: the file afterwards, and the report. -/
def recover (file : Option Bytes) : Option Bytes × Except ChangeJournalRaised Recovery :=
  match read file true with
  | .error x => (file, .error x)
  | .ok events =>
    let raw := file.getD []
    if raw ≠ [] ∧ raw.getLast? ≠ some 10 then
      (some (raw.reverse.dropWhile (· ≠ 10)).reverse, .ok ⟨"recovered", events.length, lastHash events⟩)
    else (file, .ok ⟨"valid", events.length, lastHash events⟩)

end ChangeJournal

end SimplicioFast
