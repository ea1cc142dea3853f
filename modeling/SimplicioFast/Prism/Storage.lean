import SimplicioFast.Prism.Receipt

/-!
# Publishing a base

`PrismArena.publish` writes the base of a generation and a sealed row about it into a storage that several repositories
share, and lets the current pointer name the generation.  Opening reads the row, and compares the generation and the
digest of the base in it, but not the digest of the repository.

The storage maps the directory of each generation to its two files.  The texts of operating system errors are left
out, and so are the registry of mapped bases, which maps a base once, and the ids drawn from the mapped file.
-/

namespace SimplicioFast

namespace Prism

open PyStr

def ARENA_SCHEMA : PyStr := "simplicio.fast.prism-arena/v1"

/-- `_digest` of a JSON value. -/
def canonicalDigest (v : Json) : PyStr := digestOf (PyStr.encodeAscii (Json.dumps true v))

/-- What a call of `publish` is about. -/
structure Publication where
  repo : PyStr
  sourceHash : PyStr
  blob : Bytes

namespace Publication

variable (p : Publication)

def baseHash : PyStr := digestOf p.blob

def generation : PyStr :=
  canonicalDigest (.obj [("schema", .str ARENA_SCHEMA), ("repo", .str p.repo), ("source_hash", .str p.sourceHash),
    ("base_hash", .str p.baseHash)])

/-- The fields of `metadata_body`. -/
def metadata : List (PyStr × PyStr) :=
  [("schema", ARENA_SCHEMA), ("action", "publish"), ("repo_hash", canonicalDigest (.str p.repo)),
    ("generation", p.generation), ("source_hash", p.sourceHash), ("base_hash", p.baseHash),
    ("size", PyStr.ofChars (Nat.toDigits 10 p.blob.length))]

def current : List (PyStr × PyStr) :=
  [("schema", ARENA_SCHEMA), ("action", "current"), ("repo_hash", canonicalDigest (.str p.repo)),
    ("generation", p.generation), ("source_hash", p.sourceHash)]

end Publication

/-- The directory of the generation in the storage, where the path has one part. -/
def directory? (generation : PyStr) : Option PyStr :=
  match parts generation with
  | [name] => if generation.head? = some (.scalar '/') ∨ name = ".." then none else some name
  | _ => none

end Prism

open Prism

/-- The files that publishing writes. -/
structure Storage where
  bases : Dict PyStr Bytes := .empty
  metadata : Dict PyStr PyStr := .empty
  current : Option PyStr := none

/-- An opened arena, as far as its base is concerned. -/
structure OpenedArena where
  repo : PyStr
  generation : PyStr
  sourceHash : PyStr
  baseHash : PyStr
  mapping : Bytes
  catalog : Dict PyStr CatalogEntry

namespace Storage

variable (st : Storage)

/-! ## Opening -/

def readMetadata (generation : PyStr) : Except ArenaRaised (Dict PyStr PyStr) :=
  match (directory? generation).bind st.metadata.get? with
  | none => .error (.arenaError "snapshot_metadata_corrupt" [])
  | some text => match metadataFields text.strip with
    | .error _ => .error (.arenaError "snapshot_metadata_corrupt" [])
    | .ok fields => .ok fields

def readBytes (generation : PyStr) : Except ArenaRaised Bytes :=
  match (directory? generation).bind st.bases.get? with
  | none => .error (.arenaError "snapshot_missing" [])
  | some blob => .ok blob

/-- `PrismArena(storage, repo, generation, expected_source_hash=…)`. -/
def openArena (repo generation : PyStr) (expected : Option PyStr) : Except ArenaRaised OpenedArena := do
  let fields ← st.readMetadata generation
  check (fields.get? "generation" = some generation) "snapshot_corrupt" "generation metadata mismatch"
  let sourceHash := (fields.get? "source_hash").getD []
  check (expected.all (sourceHash = ·)) "source_stale" "source hash differs"
  let blob ← st.readBytes generation
  check (fields.get? "base_hash" = some (digestOf blob)) "snapshot_corrupt" "base digest"
  let catalog ← decodeCatalog blob
  return { repo, generation, sourceHash, baseHash := digestOf blob, mapping := blob, catalog }

/-- The generation that the current pointer names. -/
def readCurrent : Except ArenaRaised PyStr :=
  match st.current with
  | none => .error (.arenaError "current_generation_corrupt" [])
  | some text => match metadataFields text.strip with
    | .error _ => .error (.arenaError "current_generation_corrupt" [])
    | .ok fields => match fields.get? "generation" with
      | none => .error (.arenaError "current_generation_corrupt" [])
      | some generation => .ok generation

def openCurrent (repo : PyStr) (expected : Option PyStr) : Except ArenaRaised OpenedArena := do
  let generation ← st.readCurrent
  st.openArena repo generation expected

/-! ## Publishing -/

/-- The base is written, unless it is there. -/
def storeBase (p : Publication) : Except ArenaRaised Storage :=
  match st.bases.get? p.generation with
  | some existing =>
    if digestOf existing ≠ p.baseHash then .error (.arenaError "snapshot_corrupt" p.generation) else .ok st
  | none => .ok { st with bases := st.bases.set p.generation p.blob }

/-- The row about the base is written, unless it is there. -/
def storeMetadata (p : Publication) : Except ArenaRaised Storage := do
  let metadata ← sealReceipt (PyStr.joinFields p.metadata) GENESIS
  match st.metadata.get? p.generation with
  | some existing =>
    if existing.strip ≠ metadata then .error (.arenaError "generation_collision" p.generation) else .ok st
  | none => .ok { st with metadata := st.metadata.set p.generation (metadata ++ [.scalar '\n']) }

def storeCurrent (p : Publication) : Except ArenaRaised Storage := do
  let current ← sealReceipt (PyStr.joinFields p.current) GENESIS
  return { st with current := some (current ++ [.scalar '\n']) }


/-- The writes of `publish`, one after the other. -/
def store (p : Publication) : Except ArenaRaised Unit × Storage :=
  match st.storeBase p with
  | .error x => (.error x, st)
  | .ok st₁ => match st₁.storeMetadata p with
    | .error x => (.error x, st₁)
    | .ok st₂ => match st₂.storeCurrent p with
      | .error x => (.error x, st₂)
      | .ok st₃ => (.ok (), st₃)

def publish (repo sourceHash : PyStr) (files : Dict PyStr Bytes) : Except ArenaRaised OpenedArena × Storage :=
  match encodeBase files with
  | .error x => (.error x, st)
  | .ok blob =>
    let p : Publication := { repo, sourceHash, blob := blob }
    match st.store p with
    | (.error x, st') => (.error x, st')
    | (.ok (), st') => (st'.openArena repo p.generation (some sourceHash), st')

end Storage

end SimplicioFast
