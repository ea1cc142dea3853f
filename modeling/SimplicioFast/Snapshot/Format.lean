import SimplicioFast.Lib.JsonParse
import SimplicioFast.Lib.Sha256
import SimplicioFast.Lib.Struct
import SimplicioFast.Snapshot.Basic

/-!
# The snapshot format

A snapshot of version 2 is a header, a directory of sections and the sections: packed records of the
files and of the symbols, the relations and the indexes as JSON, and the texts that the records point
into.  `buildV2` writes it, and reads it back before it is published.

`str.casefold` is a parameter.
-/

namespace SimplicioFast

/-- The exceptions of the snapshot functions. -/
inductive SnapshotRaised
  | valueError (message : PyStr)
  | structError
  | unicodeEncodeError
  | unicodeDecodeError
  | keyError
  | indexError
  | typeError
  | tooLarge (size limit : ℕ)
deriving DecidableEq

/-- An element of the list that `_build_v2` gets: a file with its symbols. -/
structure FileEntry where
  path : PyStr
  digest : Bytes
  size : ℕ
  symbols : List Symbol

namespace SnapshotFormat

def MAGIC : Bytes := PyStr.asciiBytes "SFAST001"

def VERSION : ℕ := 2

def ENDIAN_MARKER : ℕ := 0x0102

def MAX_SNAPSHOT_BYTES : ℕ := 512 * 1024 * 1024

def MAX_FILES : ℕ := 1000000

def MAX_SYMBOLS : ℕ := 5000000

def MAX_RELATIONS : ℕ := 10000000

def MAX_SECTIONS : ℕ := 32

def REQUIRED_SECTIONS : List PyStr := ["files", "symbols", "relations", "indexes", "strings"]

def KIND_TO_ID : List (PyStr × ℕ) :=
  [("class", 1), ("function", 2), ("async_function", 3), ("import", 4), ("namespace", 5),
    ("interface", 6), ("struct", 7), ("trait", 8), ("enum", 9), ("test", 10), ("property", 11),
    ("attribute", 12), ("type", 13), ("variable", 14), ("constant", 15), ("module", 16),
    ("method", 17), ("field", 18), ("unknown", 19)]

def ID_TO_KIND : List (ℕ × PyStr) := KIND_TO_ID.map Prod.swap

def kindAliases : List (PyStr × PyStr) :=
  [("fn", "function"), ("func", "function"), ("def", "function"), ("cls", "class"),
    ("typedef", "type"), ("typealias", "type"), ("const", "constant"), ("var", "variable")]

def RELATION_KINDS : List PyStr := ["import", "reference", "call", "definition", "test"]

variable (casefold : PyStr → PyStr)

def kindToId (kind : PyStr) : ℕ :=
  if kind = [] then 2
  else
    let key := casefold kind.strip
    match Dict.find KIND_TO_ID key with
    | some id => id
    | none => ((Dict.find kindAliases key).bind (Dict.find KIND_TO_ID)).getD 2

/-- The kind that is read back for a kind. -/
def normalizeKind (kind : PyStr) : PyStr := (Dict.find ID_TO_KIND (kindToId casefold kind)).getD []

/-- `if not condition: raise`. -/
def require (condition : Bool) (x : SnapshotRaised) : Except SnapshotRaised Unit :=
  if condition then .ok () else .error x

/-! ## Provenance -/

def SNAPSHOT_PROVENANCE_SCHEMA : PyStr := "simplicio.fast.snapshot-provenance/v1"

def MAPPER_HANDOFF_SCHEMA : PyStr := "simplicio.mapper-fast-handoff/v1"

def bootstrapProvenance (repositoryId : PyStr) : Json :=
  .obj [("schema", .str SNAPSHOT_PROVENANCE_SCHEMA), ("mode", .str "bootstrap"),
    ("authority", .str "simplicio-fast-bootstrap"), ("mapper_schema", .null),
    ("mapper_version", .null), ("repository_id", .str repositoryId), ("mapper_generation", .null),
    ("artifact_digest", .null), ("fast_format_version", .int VERSION),
    ("capability_coverage", .obj [("context_graph", .bool false), ("files", .bool true),
      ("symbols", .bool true), ("relations", .bool true), ("source_hashes", .bool true),
      ("stable_handles", .bool false)])]

/-- The keys that a provenance must have. -/
def provenanceKeys : List PyStr :=
  ["schema", "mode", "authority", "mapper_schema", "mapper_version", "repository_id",
    "mapper_generation", "artifact_digest", "fast_format_version", "capability_coverage"]

def isText (s : PyStr) : Option Json → Bool
  | some (.str t) => t = s
  | _ => false

/-- Whether the entry is a text that is not blank. -/
def isFilled : Option Json → Bool
  | some (.str t) => t.strip ≠ []
  | _ => false

/-- Whether the entry is `None`. -/
def isNull : Option Json → Bool
  | some .null => true
  | _ => false

def isMapping : Option Json → Bool
  | some (.obj _) => true
  | _ => false

/-- The checks of `_validate_snapshot_provenance` for the mode `integrated`. -/
def validateIntegrated (get : PyStr → Option Json) : Except SnapshotRaised Unit := do
  require (isText "simplicio-mapper" (get "authority"))
    (.valueError "snapshot Mapper authority is invalid")
  require (isText MAPPER_HANDOFF_SCHEMA (get "mapper_schema"))
    (.valueError "snapshot Mapper schema is invalid")
  require (isFilled (get "mapper_version")) (.valueError "snapshot Mapper version is invalid")
  require (isFilled (get "mapper_generation")) (.valueError "snapshot Mapper generation is invalid")
  require (match get "artifact_digest" with
    | some (.str digest) => digest.isSha256
    | _ => false) (.valueError "snapshot Mapper artifact digest is invalid")

/-- The checks of `_validate_snapshot_provenance` for the mode `bootstrap`. -/
def validateBootstrap (get : PyStr → Option Json) : Except SnapshotRaised Unit := do
  require (isText "simplicio-fast-bootstrap" (get "authority"))
    (.valueError "snapshot bootstrap authority is invalid")
  require (isNull (get "mapper_schema") && isNull (get "mapper_generation"))
    (.valueError "bootstrap snapshot contains Mapper identity")
  require (isNull (get "artifact_digest"))
    (.valueError "bootstrap snapshot contains Mapper artifact digest")

/-- The checks of `_validate_snapshot_provenance` that depend on the mode. -/
def validateMode (get : PyStr → Option Json) : Except SnapshotRaised Unit :=
  if isText "integrated" (get "mode") then validateIntegrated get
  else if isText "bootstrap" (get "mode") then validateBootstrap get
  else .ok ()

/-- `_validate_snapshot_provenance`. -/
def validateProvenance (value : Option Json) : Except SnapshotRaised Json :=
  match value with
  | some (.obj fields) => do
    let get := Dict.find fields
    require (provenanceKeys.all fun key => (get key).isSome)
      (.valueError "snapshot provenance is incomplete")
    require (isText SNAPSHOT_PROVENANCE_SCHEMA (get "schema"))
      (.valueError "snapshot provenance schema mismatch")
    require (isText "bootstrap" (get "mode") || isText "integrated" (get "mode") ||
      isText "legacy" (get "mode")) (.valueError "snapshot provenance mode is unsupported")
    require (isFilled (get "repository_id"))
      (.valueError "snapshot provenance repository is invalid")
    require ((get "fast_format_version").any (Json.pyEq (.int VERSION)))
      (.valueError "snapshot provenance format mismatch")
    require (isMapping (get "capability_coverage"))
      (.valueError "snapshot capability coverage is invalid")
    validateMode get
    return .obj fields
  | _ => .error (.valueError "snapshot provenance is missing")

/-! ## Writing -/

/-- `_add_string`: the text section, and the offset and the length of the text in it. -/
def addString (strings : Bytes) (value : PyStr) : Except SnapshotRaised (Bytes × ℕ × ℕ) :=
  match value.encode with
  | none => .error .unicodeEncodeError
  | some encoded => .ok (strings ++ encoded, strings.length, encoded.length)

/-- The integers of a record, followed by its byte strings. -/
def packRow (fields : List (ℕ × ℕ)) (blobs : Bytes) : Except SnapshotRaised Bytes :=
  match Struct.pack fields with
  | none => .error .structError
  | some b => .ok (b ++ blobs)

/-- The file records, and the text section with the paths. -/
def fileRows (strings : Bytes) : List FileEntry → Except SnapshotRaised (Bytes × List Bytes)
  | [] => .ok (strings, [])
  | e :: es => do
    let (strings, offset, length) ← addString strings e.path
    let fileId := Struct.blob 16 (Sha256.digest (e.path.encode.getD []))
    let row ← packRow [(4, offset), (4, length), (8, e.size)] (Struct.blob 32 e.digest ++ fileId)
    let (strings, rows) ← fileRows strings es
    return (strings, row :: rows)

/-- `file_index`: the position of the last file with the path. -/
def fileIndex (entries : List FileEntry) (path : PyStr) : Except SnapshotRaised ℕ :=
  match (List.range entries.length).reverse.find? fun i =>
      (entries[i]?.map FileEntry.path) = some path with
  | some i => .ok i
  | none => .error .keyError

def fromHex (s : PyStr) : Except SnapshotRaised Bytes :=
  match s.chars?.bind Bytes.fromHex with
  | some b => .ok b
  | none => .error (.valueError "non-hexadecimal number found in fromhex() arg")

/-- The order of the symbols: by casefolded name, qualified name, file and line. -/
def symbolLe (s t : Symbol) : Bool :=
  casefold s.name < casefold t.name || casefold s.name = casefold t.name &&
    (s.qualifiedName < t.qualifiedName || s.qualifiedName = t.qualifiedName &&
      (s.file < t.file || s.file = t.file && s.line ≤ t.line))

/-- The symbols of the files, in the order of the symbol records. -/
def sortedSymbols (entries : List FileEntry) : List Symbol :=
  (entries.flatMap FileEntry.symbols).insertionSort fun s t => symbolLe casefold s t = true

/-- The symbol records, and the text section with the texts of the symbols. -/
def symbolRows (entries : List FileEntry) (strings : Bytes) :
    List Symbol → Except SnapshotRaised (Bytes × List Bytes)
  | [] => .ok (strings, [])
  | s :: ss => do
    let (strings, nameOffset, nameLength) ← addString strings s.name
    let (strings, qualifiedOffset, qualifiedLength) ← addString strings s.qualifiedName
    let (strings, signatureOffset, signatureLength) ← addString strings s.signature
    let file ← fileIndex entries s.file
    let id ← fromHex s.symbolId
    let row ← packRow [(4, nameOffset), (4, nameLength), (4, qualifiedOffset), (4, qualifiedLength),
      (4, signatureOffset), (4, signatureLength), (4, file), (4, s.line), (4, s.endLine),
      (4, kindToId casefold s.kind)] (Struct.blob 32 id)
    let (strings, rows) ← symbolRows entries strings ss
    return (strings, row :: rows)

/-- One of the indexes: the positions of the symbols by a key. -/
def indexBy (key : Symbol → PyStr) (symbols : List Symbol) : Json :=
  .obj ((symbols.zipIdx.foldl (fun (d : Dict PyStr (List Json)) (s : Symbol × ℕ) =>
    d.set (key s.1) ((d.get? (key s.1)).getD [] ++ [.int s.2])) .empty).entries.map
      fun e => (e.1, .arr e.2))

/-- The section `indexes`. -/
def indexes (symbols : List Symbol) (provenance : Json) : Json :=
  .obj [("exact", indexBy (fun s => casefold s.qualifiedName) symbols),
    ("names", indexBy (fun s => casefold s.name) symbols), ("paths", indexBy Symbol.file symbols),
    ("kinds", indexBy Symbol.kind symbols), ("provenance", provenance)]

/-- Whether the first float is at most the second. -/
def confidenceLe (c d : Decimal) : Bool :=
  (if c.neg then -(c.digits : ℤ) else c.digits) * 10 ^ d.scale ≤
    (if d.neg then -(d.digits : ℤ) else d.digits) * 10 ^ c.scale

/-- The order of the relations: by kind, origin, destination and confidence. -/
def relationLe (r t : Relation) : Bool :=
  r.kind < t.kind || r.kind = t.kind &&
    (r.origin < t.origin || r.origin = t.origin &&
      (r.destination < t.destination || r.destination = t.destination &&
        confidenceLe r.confidence t.confidence))

def relationJson (r : Relation) : Json :=
  .obj [("origin", .str r.origin), ("destination", .str r.destination), ("kind", .str r.kind),
    ("confidence", .float r.confidence), ("origin_id", .str r.originId),
    ("destination_id", .str r.destinationId)]

/-- The relations in the order of their section. -/
def sortedRelations (relations : List Relation) : List Relation :=
  relations.insertionSort fun r t => relationLe r t = true

def jsonBytes (v : Json) : Except SnapshotRaised Bytes :=
  match (v.dumps false).encode with
  | none => .error .unicodeEncodeError
  | some b => .ok b

def align (offset : ℕ) : ℕ := if offset % 8 = 0 then offset else offset + (8 - offset % 8)

/-- The sections with their offsets, when they start at an offset. -/
def layout : ℕ → List (PyStr × Bytes) → List (PyStr × ℕ × Bytes)
  | _, [] => []
  | offset, (name, data) :: rest =>
    (name, align offset, data) :: layout (align offset + data.length) rest

/-- The bytes of the sections, with zeros between them. -/
def body : ℕ → List (PyStr × Bytes) → Bytes
  | _, [] => []
  | offset, (_, data) :: rest =>
    List.replicate (align offset - offset) 0 ++ (data ++ body (align offset + data.length) rest)

def sectionRow (s : PyStr × ℕ × Bytes) : Except SnapshotRaised Bytes := do
  let numbers ← packRow [(8, s.2.1), (8, s.2.2.length)] (Sha256.digest s.2.2)
  return Struct.blob 16 (PyStr.encodeAscii s.1) ++ numbers

/-- `HEADER.size`. -/
def headerSize : ℕ := 80

/-- `SECTION_RECORD.size`. -/
def sectionSize : ℕ := 64

/-- `FILE_RECORD.size`. -/
def fileSize : ℕ := 64

/-- `SYMBOL_RECORD.size`. -/
def symbolSize : ℕ := 72

def header (sectionCount generation totalSize : ℕ) (checksum : Bytes) :
    Except SnapshotRaised Bytes := do
  let rest ← packRow [(2, VERSION), (2, ENDIAN_MARKER), (4, sectionCount), (8, generation),
    (8, headerSize), (8, sectionSize * sectionCount), (8, totalSize)] (Struct.blob 32 checksum)
  return MAGIC ++ rest

/-- The bytes of a snapshot with the given sections. -/
def packSections (sections : List (PyStr × Bytes)) (generation : ℕ) :
    Except SnapshotRaised Bytes := do
  let start := headerSize + sectionSize * sections.length
  let rows ← (layout start sections).mapM sectionRow
  let contents := rows.flatten ++ body start sections
  let totalSize := headerSize + contents.length
  require (totalSize ≤ MAX_SNAPSHOT_BYTES) (.tooLarge totalSize MAX_SNAPSHOT_BYTES)
  let blank ← header sections.length generation totalSize []
  let sealed ← header sections.length generation totalSize (Sha256.digest (blank ++ contents))
  return sealed ++ contents

end SnapshotFormat

end SimplicioFast
