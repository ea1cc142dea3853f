import SimplicioFast.Lib.Sha256
import SimplicioFast.Lib.Struct
import SimplicioFast.Lib.Json

/-!
# The Rust snapshot reader

`SnapshotReader::from_storage` checks the header, the section directory, the sections and the indexes of a snapshot.
It does not look into the records; they are checked when they are read.

The typed JSON of `serde_json` is a parameter.  Pointers have 64 bits.
-/

namespace SimplicioFast

namespace RustCore

/-- `SnapshotError`. -/
inductive SnapshotError
  | io (error : PyStr)
  | invalid (reason : PyStr)
deriving DecidableEq

namespace SnapshotError

/-- `fmt`. -/
def display : SnapshotError → PyStr
  | io error => ("I/O error: " : PyStr) ++ error
  | invalid reason => ("invalid snapshot: " : PyStr) ++ reason

end SnapshotError

/-- `if condition { return Err(..) }`, for the condition that is not met. -/
def ensure (condition : Bool) (reason : PyStr) : Except SnapshotError Unit :=
  if condition then .ok () else .error (.invalid reason)

def MAGIC : Bytes := PyStr.asciiBytes "SFAST001"

def VERSION : ℕ := 2

def ENDIAN_MARKER : ℕ := 0x0102

def HEADER_SIZE : ℕ := 80

def SECTION_SIZE : ℕ := 64

def FILE_RECORD_SIZE : ℕ := 64

def SYMBOL_RECORD_SIZE : ℕ := 72

def MAX_SNAPSHOT_BYTES : ℕ := 512 * 1024 * 1024

def REQUIRED_SECTIONS : List PyStr := ["files", "symbols", "relations", "indexes", "strings"]

/-! ## Integers and regions -/

/-- The integer of `w` bytes at an offset, as `u16_at`, `u32_at` and `u64_at` read it. -/
def intAt (w : ℕ) (raw : Bytes) (offset : ℕ) : ℕ := Bytes.unpackLE (Bytes.slice raw offset (offset + w))

def regionValid (offset length total : ℕ) : Bool := offset ≤ total && length ≤ total - offset

/-- `section_bytes`, of a section with its offset and its length. -/
def sectionBytes (raw : Bytes) (region : ℕ × ℕ) : Bytes := Bytes.slice raw region.1 (region.1 + region.2)

/-! ## Relations and indexes -/

/-- `RustRelation`; the confidence is a finite float. -/
structure RustRelation where
  origin : PyStr
  destination : PyStr
  kind : PyStr
  confidence : Decimal
  originId : PyStr
  destinationId : PyStr
deriving DecidableEq

structure PersistedIndexes where
  exact_ : List (PyStr × List ℕ)
  names : List (PyStr × List ℕ)
  paths : List (PyStr × List ℕ)
  kinds : List (PyStr × List ℕ)
deriving DecidableEq

/-- The deserializers of `serde_json`: for the two JSON sections, and for any text. -/
structure Serde where
  relations : Bytes → Option (List RustRelation)
  indexes : Bytes → Option PersistedIndexes
  fromStr : PyStr → Option Json

def isUnit (d : Decimal) : Bool :=
  match Json.number? (.float d) with
  | some (p, q) => 0 ≤ p && p ≤ 10 ^ q
  | none => false

def validRelation (r : RustRelation) : Bool :=
  isUnit r.confidence && r.origin ≠ [] && r.destination ≠ [] && r.kind ≠ []

/-- Whether `RelationVisitor` takes the relation, but for its limit. -/
def relationMatches (handle kind : Option PyStr) (r : RustRelation) : Bool :=
  (handle.all fun h => r.origin = h || r.destination = h || r.originId = h || r.destinationId = h) &&
    kind.all fun k => r.kind = k

def relationSection (serde : Serde) (bytes : Bytes) (handle kind : Option PyStr) (limit : ℕ) :
    Except SnapshotError (List RustRelation) :=
  match serde.relations bytes with
  | none => .error (.invalid "invalid relation JSON")
  | some relations => do
    ensure (relations.all validRelation) "invalid relation JSON"
    return (relations.filter (relationMatches handle kind)).take limit

/-- Whether each entry is smaller than the next one. -/
def strictlyOrdered : List ℕ → Bool
  | a :: b :: rest => a < b && strictlyOrdered (b :: rest)
  | _ => true

def PersistedIndexes.values (indexes : PersistedIndexes) : List (List ℕ) :=
  (indexes.exact_ ++ indexes.names ++ indexes.paths ++ indexes.kinds).map Prod.snd

/-- The check of `validate_persisted_indexes` for one entry. -/
def validateValues (symbolCount : ℕ) (values : List ℕ) : Except SnapshotError Unit := do
  ensure (values.all (· < symbolCount)) "persisted index record out of bounds"
  ensure (strictlyOrdered values) "persisted index records not strictly ordered"

def validatePersistedIndexes (indexes : PersistedIndexes) (symbolCount : ℕ) : Except SnapshotError Unit :=
  indexes.values.forM (validateValues symbolCount)

/-! ## Sections -/

/-- The name of a section: its bytes up to the first zero, as UTF-8. -/
def sectionName (name : Bytes) : Except SnapshotError PyStr :=
  match PyStr.decode (name.takeWhile (· ≠ 0)) with
  | none => .error (.invalid "non-ASCII section name")
  | some name => .ok name

/-- A turn of the loop over the section directory. -/
def readSection (raw : Bytes) (directoryEnd : ℕ) (sections : Dict PyStr (ℕ × ℕ)) (start : ℕ) :
    Except SnapshotError (Dict PyStr (ℕ × ℕ)) := do
  let name ← sectionName (Bytes.slice raw start (start + 16))
  ensure (name ≠ [] && (sections.get? name).isNone) "duplicate or empty section name"
  let region := (intAt 8 raw (start + 16), intAt 8 raw (start + 24))
  ensure (region.1 % 8 = 0 && directoryEnd ≤ region.1 && regionValid region.1 region.2 raw.length)
    (("invalid section bounds: " : PyStr) ++ name)
  ensure (Sha256.digest (sectionBytes raw region) = Bytes.slice raw (start + 32) (start + 64))
    (("section checksum mismatch: " : PyStr) ++ name)
  return sections.set name region

/-- The loop over the section directory. -/
def readSections (raw : Bytes) (directoryOffset directoryEnd : ℕ) :
    List ℕ → Dict PyStr (ℕ × ℕ) → Except SnapshotError (Dict PyStr (ℕ × ℕ))
  | [], sections => .ok sections
  | index :: rest, sections => do
    let sections ← readSection raw directoryEnd sections (directoryOffset + index * SECTION_SIZE)
    readSections raw directoryOffset directoryEnd rest sections

/-- Whether two regions overlap; the ends of an empty one count too. -/
def overlaps (left right : ℕ × ℕ) : Bool := left.1 < right.1 + right.2 && right.1 < left.1 + left.2

/-- Whether two of the regions overlap. -/
def anyOverlap : List (ℕ × ℕ) → Bool
  | [] => false
  | left :: rest => rest.any (overlaps left) || anyOverlap rest

/-! ## Opening -/

structure SnapshotReader where
  bytes : Bytes
  sections : Dict PyStr (ℕ × ℕ)
  digest : Bytes
  indexes : PersistedIndexes

/-- The checks of `from_storage` on the header; it returns the number of sections and the offset of the directory. -/
def openHeader (raw : Bytes) : Except SnapshotError (ℕ × ℕ) := do
  ensure (HEADER_SIZE ≤ raw.length) "truncated header"
  ensure (raw.length ≤ MAX_SNAPSHOT_BYTES) "snapshot size limit exceeded"
  ensure (raw.take 8 = MAGIC) "invalid magic"
  let sectionCount := intAt 4 raw 12
  let directoryOffset := intAt 8 raw 24
  let directorySize := intAt 8 raw 32
  ensure (intAt 2 raw 8 = VERSION && intAt 2 raw 10 = ENDIAN_MARKER) "unsupported version or endian marker"
  ensure (intAt 8 raw 40 = raw.length) "total size mismatch"
  ensure (REQUIRED_SECTIONS.length ≤ sectionCount && sectionCount ≤ 32 && directorySize = sectionCount * SECTION_SIZE &&
    HEADER_SIZE ≤ directoryOffset && regionValid directoryOffset directorySize raw.length) "invalid section directory"
  ensure (Sha256.digest (raw.take 48 ++ List.replicate 32 0 ++ raw.drop HEADER_SIZE) = Bytes.slice raw 48 HEADER_SIZE)
    "snapshot checksum mismatch"
  return (sectionCount, directoryOffset)

def sectionOf (sections : Dict PyStr (ℕ × ℕ)) (name : PyStr) : ℕ × ℕ := (sections.get? name).getD (0, 0)

/-- The check that no section is missing. -/
def checkRequired (sections : Dict PyStr (ℕ × ℕ)) : Except SnapshotError Unit :=
  match REQUIRED_SECTIONS.find? fun name => (sections.get? name).isNone with
  | some name => .error (.invalid (("missing section: " : PyStr) ++ name))
  | none => .ok ()

/-- The checks of `from_storage` on the sections; it returns the indexes. -/
def openSections (serde : Serde) (raw : Bytes) (sections : Dict PyStr (ℕ × ℕ)) :
    Except SnapshotError PersistedIndexes := do
  ensure (!anyOverlap sections.values) "overlapping sections"
  checkRequired sections
  ensure ((sectionOf sections "files").2 % FILE_RECORD_SIZE = 0 &&
    (sectionOf sections "symbols").2 % SYMBOL_RECORD_SIZE = 0) "record section is not aligned"
  let _ ← relationSection serde (sectionBytes raw (sectionOf sections "relations")) none none 0
  let symbolCount := (sectionOf sections "symbols").2 / SYMBOL_RECORD_SIZE
  match serde.indexes (sectionBytes raw (sectionOf sections "indexes")) with
  | none => .error (.invalid "invalid persisted indexes")
  | some indexes => do
    validatePersistedIndexes indexes symbolCount
    return indexes

def fromStorage (serde : Serde) (raw : Bytes) : Except SnapshotError SnapshotReader := do
  let (sectionCount, directoryOffset) ← openHeader raw
  let sections ← readSections raw directoryOffset (directoryOffset + sectionCount * SECTION_SIZE)
    (List.range sectionCount) .empty
  let indexes ← openSections serde raw sections
  return { bytes := raw, sections, digest := Sha256.digest raw, indexes := indexes }

namespace SnapshotReader

/-- `generation` of the stats. -/
def generation (r : SnapshotReader) : PyStr := ("SFAST001:" : PyStr) ++ PyStr.ofChars (Bytes.hex r.digest)

end SnapshotReader

end RustCore

end SimplicioFast
