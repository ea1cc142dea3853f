import SimplicioFast.Lib.FileSystem
import SimplicioFast.Lib.Json
import SimplicioFast.Lib.Sha256

/-!
# Publishing segments

`SegmentStore.publish` copies every section of a snapshot to a file of its own, whose name has the name of the section
and the digest of its bytes, and then replaces the manifest that names these files.  Each file is written in a staging
directory first and renamed from there.

The process number and the name that `mkdtemp` invents are parameters.
-/

namespace SimplicioFast

namespace Segments

open Crash FileSystem

/-- The exceptions of this module. -/
inductive Raised
  | osError (e : OsError)
  | segmentStoreError (reason : PyStr)
deriving DecidableEq

def MANIFEST_SCHEMA : PyStr := "simplicio.fast.segments/v1"

def MANIFEST_NAME : PyStr := "manifest.json"

def MANIFEST_BACKUP_NAME : PyStr := "manifest.previous.json"

/-- `hashlib.sha256(data).hexdigest()`. -/
def hexdigest (data : Bytes) : PyStr := PyStr.ofChars (Sha256.hexdigest data)

/-! ## Manifests -/

structure Segment where
  name : PyStr
  file : PyStr
  bytes : ℕ
  sha256 : PyStr
deriving DecidableEq

/-- The payload of a manifest. -/
structure Manifest where
  generation : PyStr
  sourceSnapshotSha256 : PyStr
  segments : List Segment
  segmentsWritten : ℕ
  segmentsReused : ℕ
deriving DecidableEq

/-- The fields of a segment in a manifest. -/
def Segment.toJson (s : Segment) : Json :=
  .obj [("name", .str s.name), ("file", .str s.file), ("bytes", .int s.bytes), ("sha256", .str s.sha256)]

def Manifest.toJson (m : Manifest) : Json :=
  .obj [("schema", .str MANIFEST_SCHEMA), ("generation", .str m.generation),
    ("source_snapshot_sha256", .str m.sourceSnapshotSha256), ("segments", .arr (m.segments.map Segment.toJson)),
    ("segments_written", .int m.segmentsWritten), ("segments_reused", .int m.segmentsReused)]

/-- A new line at a level of `indent=2`. -/
def newline (level : ℕ) : PyStr := .scalar '\n' :: List.replicate (2 * level) (.scalar ' ')

mutual

/-- `json.dumps(value, indent=2)` at a level. -/
def writeIndented (level : ℕ) : Json → PyStr
  | .arr (v :: vs) => .scalar '[' :: (newline (level + 1) ++ writeIndented (level + 1) v ++ writeIndentedItems level vs)
  | .obj (f :: fs) => .scalar '{' :: (newline (level + 1) ++ writeIndentedField (level + 1) f ++
      writeIndentedFields level fs)
  | v => v.write true

/-- The items after the first one, and the closing bracket. -/
def writeIndentedItems (level : ℕ) : List Json → PyStr
  | [] => newline level ++ [.scalar ']']
  | v :: vs => .scalar ',' :: (newline (level + 1) ++ writeIndented (level + 1) v ++ writeIndentedItems level vs)

def writeIndentedField (level : ℕ) : PyStr × Json → PyStr
  | (k, v) => Json.writeStr true k ++ .scalar ':' :: .scalar ' ' :: writeIndented level v

/-- The fields after the first one, and the closing brace. -/
def writeIndentedFields (level : ℕ) : List (PyStr × Json) → PyStr
  | [] => newline level ++ [.scalar '}']
  | f :: fs => .scalar ',' :: (newline (level + 1) ++ writeIndentedField (level + 1) f ++ writeIndentedFields level fs)

end

def Manifest.encode (m : Manifest) : Bytes :=
  PyStr.encodeAscii (writeIndented 0 m.toJson.sortKeys ++ [.scalar '\n'])

/-! ## The store -/

/-- What `publish` reads of a snapshot: its sections, which have different names, its generation and its digest. -/
structure Source where
  sections : List (PyStr × Bytes)
  generation : PyStr
  sha256 : PyStr
  distinct : (sections.map Prod.fst).Nodup

structure SegmentStore where
  directory : List PyStr

/-- What the process gets from its environment: its number, the directory for temporary files, and the eight characters
that `mkdtemp` invents, which are letters, digits and underscores. -/
structure Environment where
  pid : ℕ
  tempdir : List PyStr
  random : PyStr
  sized : random.length = 8
  undotted : .scalar '.' ∉ random

def Environment.staging (env : Environment) : PyStr := (".segments-" : PyStr) ++ env.random

/-- The name of a temporary file of a manifest. -/
def Environment.temporary (env : Environment) (name : PyStr) : PyStr :=
  (("." : PyStr) ++ name ++ ("." : PyStr) ++ Json.writeInt env.pid ++ (".tmp" : PyStr))

/-- `f"{name}-{digest}.seg"`. -/
def fileName (name : PyStr) (data : Bytes) : PyStr := name ++ ((("-" : PyStr) ++ hexdigest data) ++ (".seg" : PyStr))

/-- What the loop over the sections gathers. -/
structure Progress where
  segments : List Segment
  written : ℕ
  reused : ℕ

def segmentOf (name : PyStr) (data : Bytes) : Segment := ⟨name, fileName name data, data.length, hexdigest data⟩

namespace SegmentStore

variable (store : SegmentStore)

def manifestPath : List PyStr := store.directory ++ [MANIFEST_NAME]

def previousManifestPath : List PyStr := store.directory ++ [MANIFEST_BACKUP_NAME]

/-- A file with the name of a section is there already. -/
def reuse (name : PyStr) (data : Bytes) : Prog FileSystem Raised PUnit :=
  Prog.read fun fs => match (fs.locate store.directory (fileName name data)).toOption.bind fs.content with
    | none => .error (.segmentStoreError (("segment_existing_unreadable:" : PyStr) ++ name))
    | some existing =>
      if existing.length ≠ data.length ∨ hexdigest existing ≠ hexdigest data then
        .error (.segmentStoreError (("segment_existing_checksum_mismatch:" : PyStr) ++ name))
      else .ok ⟨⟩

/-- The file of a section takes its place. -/
def place (temporary : List PyStr) (name : PyStr) (data : Bytes) : Prog FileSystem Raised PUnit :=
  located .osError store.directory (fileName name data) >>= fun final => rename .osError temporary final

/-- The body of the loop over the sections. -/
def publishSection (staging : List PyStr) (progress : Progress) (section_ : PyStr × Bytes) :
    Prog FileSystem Raised Progress := do
  let temporary ← located .osError staging (fileName section_.1 section_.2)
  write .osError temporary section_.2
  let exists_ ← Prog.read fun fs => .ok (fs.existsAt store.directory (fileName section_.1 section_.2))
  match exists_ with
  | true => do
    store.reuse section_.1 section_.2
    return { progress with
      segments := progress.segments ++ [segmentOf section_.1 section_.2], reused := progress.reused + 1 }
  | false => do
    store.place temporary section_.1 section_.2
    return { progress with
      segments := progress.segments ++ [segmentOf section_.1 section_.2], written := progress.written + 1 }

/-- The manifest that is there is copied to the backup. -/
def keepPrevious (env : Environment) : Prog FileSystem Raised PUnit := do
  let exists_ ← Prog.read fun fs => .ok (fs.get? store.manifestPath).isSome
  match exists_ with
  | true => do
    let current ← readBytes .osError store.manifestPath
    write .osError (store.directory ++ [env.temporary MANIFEST_BACKUP_NAME]) current
    rename .osError (store.directory ++ [env.temporary MANIFEST_BACKUP_NAME]) store.previousManifestPath
  | false => pure ⟨⟩

/-- The manifest takes the place of the one that is there. -/
def replaceManifest (env : Environment) (m : Manifest) : Prog FileSystem Raised PUnit := do
  makedirs .osError store.directory
  write .osError (store.directory ++ [env.temporary MANIFEST_NAME]) m.encode
  store.keepPrevious env
  rename .osError (store.directory ++ [env.temporary MANIFEST_NAME]) store.manifestPath

/-- The sections in the order of their names. -/
def ordered (source : Source) : List (PyStr × Bytes) := source.sections.insertionSort fun s t => s.1 ≤ t.1

/-- The part of `publish` in which the staging directory is in its place. -/
def publishFrom (env : Environment) (source : Source) (staging : List PyStr) : Prog FileSystem Raised Manifest := do
  let progress ← (ordered source).foldlM (store.publishSection staging) ⟨[], 0, 0⟩
  let m : Manifest := ⟨source.generation, source.sha256, progress.segments, progress.written, progress.reused⟩
  store.replaceManifest env m
  return m

/-- The directory where `mkdtemp` makes the staging directory. -/
def stagingParent (env : Environment) (fs : FileSystem) : List PyStr :=
  if (fs.get? store.directory.dropLast).isSome then store.directory.dropLast else env.tempdir

/-- The staging directory moves to the directory of the store, when it is not there. -/
def moveStaging (env : Environment) (parent : List PyStr) : Prog FileSystem Raised PUnit := do
  makedirs .osError store.directory
  if parent = store.directory then pure ⟨⟩
  else moveEmptyDir .osError (parent ++ [env.staging]) (store.directory ++ [env.staging])

def publish (env : Environment) (source : Source) : Prog FileSystem Raised Manifest := do
  let parent ← Prog.read fun fs => .ok (store.stagingParent env fs)
  mkdir .osError (parent ++ [env.staging])
  (store.moveStaging env parent).onError (rmtree (parent ++ [env.staging]))
  (store.publishFrom env source (store.directory ++ [env.staging])).finally_ (rmtree (store.directory ++ [env.staging]))

end SegmentStore

end Segments

end SimplicioFast
