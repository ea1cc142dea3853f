import SimplicioFast.Lib.JsonBytes
import SimplicioFast.Snapshot.Format

/-!
# Opening a snapshot

`Snapshot.__init__` maps a file, checks it as a whole and every record in it, and keeps the regions of
its sections.  The methods `files`, `symbols` and `relations` decode the records on every call.
`buildV2` publishes the bytes that it packs only when they can be opened.

Files of version 1 are left out.
-/

namespace SimplicioFast

/-- The regions of the required sections: their offsets and their lengths. -/
structure Sections where
  files : ℕ × ℕ
  symbols : ℕ × ℕ
  relations : ℕ × ℕ
  indexes : ℕ × ℕ
  strings : ℕ × ℕ
deriving DecidableEq

/-- An open `Snapshot` of version 2. -/
structure OpenSnapshot where
  map : Bytes
  sections : Sections
  fileCount : ℕ
  symbolCount : ℕ
  relationCount : ℕ
  provenance : Json

namespace SnapshotFormat

/-! ## Regions and records -/

/-- The widths of the integers in the header after the magic. -/
def headerWidths : List ℕ := [2, 2, 4, 8, 8, 8, 8]

/-- The widths of the integers in a section record. -/
def sectionWidths : List ℕ := [8, 8]

/-- The widths of the integers in a file record. -/
def fileWidths : List ℕ := [4, 4, 8]

/-- The widths of the integers in a symbol record. -/
def symbolWidths : List ℕ := [4, 4, 4, 4, 4, 4, 4, 4, 4, 4]

def validateRegion (offset length limit minimum : ℕ) : Except SnapshotRaised Unit :=
  require (minimum ≤ offset && offset ≤ limit && length ≤ limit - offset)
    (.valueError "snapshot offset or length is outside the mapped file")

def validateText (offset length limit : ℕ) : Except SnapshotRaised Unit :=
  require (offset ≤ limit && length ≤ limit - offset)
    (.valueError "snapshot string offset or length is outside the string section")

def regionBytes (map : Bytes) (region : ℕ × ℕ) : Bytes :=
  Bytes.slice map region.1 (region.1 + region.2)

/-- The record with the given index, in a section of records of one size. -/
def record (map : Bytes) (region : ℕ × ℕ) (size index : ℕ) : Bytes :=
  Bytes.slice map (region.1 + index * size) (region.1 + index * size + size)

/-- `json.loads` of bytes. -/
def loadsBytes (b : Bytes) : Except SnapshotRaised Json :=
  match (PyStr.decodeDetected b).bind Json.loads with
  | none => .error (.valueError "invalid index or relation section")
  | some v => .ok v

/-! ## The section directory -/

/-- `bytes.rstrip(b"\0")`. -/
def rstripZeros (b : Bytes) : Bytes := (b.reverse.dropWhile (· = 0)).reverse

/-- `bytes.decode("ascii")`. -/
def decodeAscii (b : Bytes) : Except SnapshotRaised PyStr :=
  if b.all fun x => x.toNat < 128 then .ok (b.map fun x => .scalar (Char.ofNat x.toNat))
  else .error .unicodeDecodeError

/-- One round of the loop over the section directory. -/
def readSection (map : Bytes) (directoryEnd : ℕ) (sections : Dict PyStr (ℕ × ℕ)) (row : Bytes) :
    Except SnapshotRaised (Dict PyStr (ℕ × ℕ)) := do
  let numbers := Struct.unpack sectionWidths (row.drop 16)
  let region := (numbers.getD 0 0, numbers.getD 1 0)
  let name ← decodeAscii (rstripZeros (row.take 16))
  require (name ≠ [] && (sections.get? name).isNone)
    (.valueError "invalid or duplicate section name")
  validateRegion region.1 region.2 map.length directoryEnd
  require (region.1 % 8 = 0) (.valueError "unaligned section offset")
  require (Sha256.digest (regionBytes map region) = Bytes.slice row 32 64)
    (.valueError (("section checksum mismatch: " : PyStr) ++ name))
  return sections.set name region

/-- The loop over the section directory. -/
def readSections (map : Bytes) (directory : ℕ × ℕ) (directoryEnd : ℕ) :
    List ℕ → Dict PyStr (ℕ × ℕ) → Except SnapshotRaised (Dict PyStr (ℕ × ℕ))
  | [], sections => .ok sections
  | index :: rest, sections => do
    let sections ← readSection map directoryEnd sections (record map directory sectionSize index)
    readSections map directory directoryEnd rest sections

/-- The required sections, when all are there. -/
def requiredSections (sections : Dict PyStr (ℕ × ℕ)) : Except SnapshotRaised Sections :=
  match sections.get? "files", sections.get? "symbols", sections.get? "relations",
    sections.get? "indexes", sections.get? "strings" with
  | some files, some symbols, some relations, some indexes, some strings =>
    .ok ⟨files, symbols, relations, indexes, strings⟩
  | _, _, _, _, _ => .error (.valueError "snapshot is missing a required section")

/-- Whether two regions that are not empty share a byte. -/
def overlaps (r s : ℕ × ℕ) : Bool :=
  0 < r.2 && 0 < s.2 && max r.1 s.1 < min (r.1 + r.2) (s.1 + s.2)

/-- Whether two of the regions share a byte. -/
def anyOverlap : List (ℕ × ℕ) → Bool
  | [] => false
  | r :: rest => rest.any (overlaps r) || anyOverlap rest

/-! ## The checks of the records -/

def validateFile (map : Bytes) (sections : Sections) (index : ℕ) : Except SnapshotRaised Unit := do
  let row := Struct.unpack fileWidths (record map sections.files fileSize index)
  validateText (row.getD 0 0) (row.getD 1 0) sections.strings.2

def validateSymbol (map : Bytes) (sections : Sections) (fileCount index : ℕ) :
    Except SnapshotRaised Unit := do
  let row := Struct.unpack symbolWidths (record map sections.symbols symbolSize index)
  validateText (row.getD 0 0) (row.getD 1 0) sections.strings.2
  validateText (row.getD 2 0) (row.getD 3 0) sections.strings.2
  validateText (row.getD 4 0) (row.getD 5 0) sections.strings.2
  require (row.getD 6 0 < fileCount && 1 ≤ row.getD 7 0 && row.getD 7 0 ≤ row.getD 8 0 &&
    (Dict.find ID_TO_KIND (row.getD 9 0)).isSome) (.valueError "invalid symbol record")

def inUnit : Option (ℤ × ℕ) → Bool
  | some (p, q) => 0 ≤ p && p ≤ 10 ^ q
  | none => false

/-- The check of the kind of a relation. -/
def validateRelationKind : Option Json → Except SnapshotRaised Unit
  | some (.str kind) => require (kind ∈ RELATION_KINDS) (.valueError "invalid relation record")
  | some (.arr _) => .error .typeError
  | some (.obj _) => .error .typeError
  | _ => .error (.valueError "invalid relation record")

def validateRelation : Json → Except SnapshotRaised Unit
  | .obj fields => do
    validateRelationKind (Dict.find fields "kind")
    require (inUnit ((Dict.find fields "confidence").bind Json.number?))
      (.valueError "invalid relation confidence")
  | _ => .error (.valueError "invalid relation record")

def validateRelations : Json → Except SnapshotRaised ℕ
  | .arr values => do
    require (values.length ≤ MAX_RELATIONS) (.valueError "invalid relation count")
    values.forM validateRelation
    return values.length
  | _ => .error (.valueError "invalid relation count")

/-- Whether an entry of an index is the position of a symbol. -/
def isPosition (symbolCount : ℕ) : Json → Bool
  | .int n => 0 ≤ n && n < symbolCount
  | .bool b => b.toNat < symbolCount
  | _ => false

/-- Whether the entries of one index are lists of positions of symbols. -/
def validatePositions (symbolCount : ℕ) : Json → Except SnapshotRaised Unit
  | .arr values => require (values.all (isPosition symbolCount))
      (.valueError "direct index points outside symbol section")
  | _ => .error (.valueError "direct index points outside symbol section")

def validateIndex (symbolCount : ℕ) : Option Json → Except SnapshotRaised Unit
  | some (.obj fields) => (fields.map Prod.snd).forM (validatePositions symbolCount)
  | _ => .error (.valueError "missing direct index")

/-- The indexes that a snapshot must have. -/
def indexNames : List PyStr := ["exact", "names", "paths", "kinds"]

/-- `_validate_v2_records`; it returns the number of relations. -/
def validateRecords (map : Bytes) (sections : Sections) (fileCount symbolCount : ℕ) :
    Except SnapshotRaised ℕ := do
  (List.range fileCount).forM (validateFile map sections)
  (List.range symbolCount).forM (validateSymbol map sections fileCount)
  let relationData ← loadsBytes (regionBytes map sections.relations)
  let indexData ← loadsBytes (regionBytes map sections.indexes)
  let relationCount ← validateRelations relationData
  indexNames.forM fun key => validateIndex symbolCount (indexData.get? key)
  return relationCount

/-! ## Opening -/

/-- The checks of `_open_v2` on the header; it returns the region of the section directory. -/
def openHeader (map : Bytes) : Except SnapshotRaised (ℕ × ℕ × ℕ) := do
  require (36 ≤ map.length && map.length ≤ MAX_SNAPSHOT_BYTES)
    (.valueError "invalid snapshot size")
  require (map.take 8 = MAGIC) (.valueError "invalid or unsupported Simplicio Fast snapshot")
  let row := Struct.unpack headerWidths (map.drop 8)
  require (row.getD 0 0 = VERSION) (.valueError
    (("unsupported Simplicio Fast snapshot version: " : PyStr) ++ Json.writeInt (row.getD 0 0)))
  require (headerSize ≤ map.length) (.valueError "truncated SFAST001/v2 header")
  let sectionCount := row.getD 2 0
  let directory := (row.getD 4 0, row.getD 5 0)
  require (row.getD 1 0 = ENDIAN_MARKER && row.getD 6 0 = map.length)
    (.valueError "invalid or unsupported SFAST001/v2 header")
  require (REQUIRED_SECTIONS.length ≤ sectionCount && sectionCount ≤ MAX_SECTIONS)
    (.valueError "invalid section count")
  validateRegion directory.1 directory.2 map.length headerSize
  require (directory.2 = sectionCount * sectionSize)
    (.valueError "invalid section directory size")
  require (Sha256.digest (map.take 48 ++ List.replicate 32 0 ++ map.drop headerSize) =
    Bytes.slice map 48 headerSize) (.valueError "snapshot checksum mismatch")
  return (sectionCount, directory)

/-- `Snapshot.__init__` on a file of version 2. -/
def openSnapshot (map : Bytes) : Except SnapshotRaised OpenSnapshot := do
  let (sectionCount, directory) ← openHeader map
  let found ← readSections map directory (directory.1 + directory.2) (List.range sectionCount)
    .empty
  let sections ← requiredSections found
  require (!anyOverlap found.values) (.valueError "overlapping snapshot sections")
  require (sections.files.2 % fileSize = 0 && sections.symbols.2 % symbolSize = 0)
    (.valueError "section length is not a whole number of records")
  let fileCount := sections.files.2 / fileSize
  let symbolCount := sections.symbols.2 / symbolSize
  require (fileCount ≤ MAX_FILES && symbolCount ≤ MAX_SYMBOLS)
    (.valueError "snapshot record limit exceeded")
  let indexData ← loadsBytes (regionBytes map sections.indexes)
  require (isMapping (some indexData)) (.valueError "invalid index payload")
  let provenance ← validateProvenance (indexData.get? "provenance")
  let relationCount ← validateRecords map sections fileCount symbolCount
  return ⟨map, sections, fileCount, symbolCount, relationCount, provenance⟩

/-! ## Reading -/

variable (s : OpenSnapshot)

def text (offset length : ℕ) : Except SnapshotRaised PyStr := do
  let start := s.sections.strings.1 + offset
  validateText offset length s.sections.strings.2
  match PyStr.decode (Bytes.slice s.map start (start + length)) with
  | none => .error .unicodeDecodeError
  | some t => .ok t

def fileAt (index : ℕ) : Except SnapshotRaised (PyStr × Bytes) := do
  let bytes := record s.map s.sections.files fileSize index
  let row := Struct.unpack fileWidths bytes
  let path ← text s (row.getD 0 0) (row.getD 1 0)
  return (path, Bytes.slice bytes 16 48)

def files : Except SnapshotRaised (List (PyStr × Bytes)) := (List.range s.fileCount).mapM (fileAt s)

def item {α : Type} (l : List α) (index : ℕ) : Except SnapshotRaised α :=
  match l[index]? with
  | none => .error .indexError
  | some a => .ok a

/-- The entry of `ID_TO_KIND`. -/
def kindOfId (id : ℕ) : Except SnapshotRaised PyStr :=
  match Dict.find ID_TO_KIND id with
  | none => .error .keyError
  | some kind => .ok kind

def symbolAt (files : List PyStr) (index : ℕ) : Except SnapshotRaised Symbol := do
  let bytes := record s.map s.sections.symbols symbolSize index
  let row := Struct.unpack symbolWidths bytes
  let name ← text s (row.getD 0 0) (row.getD 1 0)
  let qualified ← text s (row.getD 2 0) (row.getD 3 0)
  let signature ← text s (row.getD 4 0) (row.getD 5 0)
  let kind ← kindOfId (row.getD 9 0)
  let file ← item files (row.getD 6 0)
  return {
    name := name
    qualifiedName := qualified
    kind := kind
    file := file
    line := row.getD 7 0
    endLine := row.getD 8 0
    symbolId := PyStr.ofChars (Bytes.hex (Bytes.slice bytes 40 72))
    signature := signature }

def symbols : Except SnapshotRaised (List Symbol) := do
  let found ← files s
  (List.range s.symbolCount).mapM (symbolAt s (found.map Prod.fst))

/-- The keyword arguments that `Relation` takes. -/
def relationFields : List PyStr :=
  ["origin", "destination", "kind", "confidence", "origin_id", "destination_id"]

/-- A `Relation` that is made of a JSON object; the types of its fields are not checked. -/
structure RelationValue where
  origin : Json
  destination : Json
  kind : Json
  confidence : Json
  originId : Json
  destinationId : Json

/-- An argument of `Relation` without a default. -/
def argument : Option Json → Except SnapshotRaised Json
  | some v => .ok v
  | none => .error .typeError

/-- `Relation(**value)`. -/
def relationOf : Json → Except SnapshotRaised RelationValue
  | .obj fields => do
    require (fields.all fun f => f.1 ∈ relationFields) .typeError
    let origin ← argument (Dict.find fields "origin")
    let destination ← argument (Dict.find fields "destination")
    let kind ← argument (Dict.find fields "kind")
    let confidence ← argument (Dict.find fields "confidence")
    let originId := (Dict.find fields "origin_id").getD (.str [])
    let destinationId := (Dict.find fields "destination_id").getD (.str [])
    return ⟨origin, destination, kind, confidence, originId, destinationId⟩
  | _ => .error .typeError

def relations : Except SnapshotRaised (List RelationValue) := do
  let value ← loadsBytes (regionBytes s.map s.sections.relations)
  match value with
  | .arr values => values.mapM relationOf
  | _ => .error .typeError

/-! ## Building -/

/-- The provenance that is written when none is given. -/
def provenanceOrDefault : Option Json → Json
  | none => bootstrapProvenance "unknown"
  | some (.obj []) => bootstrapProvenance "unknown"
  | some v => v

/-- The generation: the first bytes of the digest of all digests. -/
def sourceGeneration (entries : List FileEntry) : ℕ :=
  Bytes.unpackLE ((Sha256.digest (entries.flatMap FileEntry.digest)).take 8)

/-- `_build_v2`, for the bytes that it publishes. -/
def buildV2 (casefold : PyStr → PyStr) (entries : List FileEntry) (relations : List Relation)
    (provenance : Option Json) : Except SnapshotRaised Bytes := do
  let (strings, fileRecords) ← fileRows [] entries
  let symbols := sortedSymbols casefold entries
  let (strings, symbolRecords) ← symbolRows casefold entries strings symbols
  let checked ← validateProvenance (some (provenanceOrDefault provenance))
  let relationBytes ← jsonBytes (.arr ((sortedRelations relations).map relationJson))
  let indexBytes ← jsonBytes (indexes casefold symbols checked)
  let payload ← packSections [("files", fileRecords.flatten), ("symbols", symbolRecords.flatten),
    ("relations", relationBytes), ("indexes", indexBytes), ("strings", strings)]
    (sourceGeneration entries)
  let _ ← openSnapshot payload
  return payload

end SnapshotFormat

end SimplicioFast
