import SimplicioFast.Cache.Pager
import SimplicioFast.Segments.Publish

/-!
# Reading segments through a pager

Readers call `SemanticSegmentPager.read`, and other processes call `publish` and `recover_previous` of the same store.
A step is what happens at once: a look at the manifest or at a file, a block under the lock of the pager, or the rename
that makes a manifest the current one.

The store is what the readers see of its directory, for sections whose names stay in the directory: files of segments,
each written once, under the name that has the digest of its bytes.
-/

namespace SimplicioFast

namespace Segments

/-- What is in the directory of a store. -/
structure StoreFiles where
  manifest : Option Manifest
  previous : Option Manifest
  files : Dict PyStr Bytes

/-- The exceptions of `SemanticSegmentPager`. -/
inductive ReadRaised
  | store (e : Raised)
  | segmentPager (reasonCode message : PyStr)
  | pager (e : PagerRaised)

/-! ## Looking at the store -/

/-- `raise SegmentStoreError(reason)`, unless the condition holds. -/
def require (condition : Bool) (reason : PyStr) : Except Raised Unit :=
  if condition then .ok () else .error (.segmentStoreError reason)

/-- Whether the text is a SHA-256 digest, of letters of either case. -/
def isDigest (s : PyStr) : Bool :=
  s.length = 64 && s.all fun c => match c with
    | .scalar c => c.isDigit || ('a' ≤ c && c ≤ 'f') || ('A' ≤ c && c ≤ 'F')
    | .surrogate _ => false

/-- `_read_manifest_file`. -/
def readManifest (payload : Option Manifest) : Except Raised Manifest :=
  match payload with
  | none => .error (.segmentStoreError "manifest_unreadable")
  | some m => do
    require (m.generation ≠ [] && isDigest m.sourceSnapshotSha256) "manifest_metadata_invalid"
    require (m.segments ≠ []) "manifest_segments_invalid"
    require ((m.segments.all fun s => s.name ≠ []) && (m.segments.map fun s => s.name).Nodup) "manifest_segments_invalid"
    return m

def validateEntry (files : Dict PyStr Bytes) (item : Segment) : Except Raised Unit := do
  require (isDigest item.sha256) "segment_entry_invalid"
  require (item.file ≠ [] && .scalar '/' ∉ item.file && item.file ≠ ".") "segment_path_invalid"
  match files.get? item.file with
  | none => .error (.segmentStoreError (("segment_missing:" : PyStr) ++ item.name))
  | some c =>
    let reason := ("segment_checksum_mismatch:" : PyStr) ++ item.name
    require (c.length = item.bytes && hexdigest c = item.sha256) reason

/-- The entry with the name in a manifest. -/
def entryOf (m : Manifest) (name : PyStr) : Option Segment := m.segments.find? fun s => s.name = name

/-! ## Readers and writers -/

/-- Where a reader is with a page, with the flight that loads the page. -/
inductive PageAt
  | finding
  | waiting (flight : ℕ)
  | loading (flight : ℕ)
  | validating (flight : ℕ) (item : Segment)
  | mapping (flight : ℕ) (item : Segment)
  | storing (flight : ℕ) (data : Bytes)
  | failing (flight : ℕ) (error : ReadRaised)
  | removing (flight : ℕ) (outcome : Except ReadRaised Bytes)

/-- Where a reader is: before it looks at the manifest, with the page that starts at `start`, or done. -/
inductive ReadAt
  | checking
  | page (segmentBytes start : ℕ) (chunks : Bytes) (pc : PageAt)
  | done (outcome : Except ReadRaised Bytes)

/-- A call of `read`. -/
structure Reader where
  name : PyStr
  offset : ℤ
  size : ℤ
  pc : ReadAt

/-- Where a writer is. -/
inductive WriteAt
  | copying (todo : List (PyStr × Bytes)) (progress : Progress)
  | backing (m : Manifest)
  | swapping (m : Manifest)
  | recovering
  | validating (m : Manifest) (todo : List Segment)
  | done (error : Option Raised)

/-- A call of `publish`, or of `recover_previous`, which has no source. -/
structure Writer where
  source : Option Source
  pc : WriteAt

structure Flight where
  event : Bool := false
  error : Option ReadRaised := none

/-- A `SemanticSegmentPager` as it was made, with at least one byte in a page. -/
structure SegmentPager where
  repository : PyStr
  generation : PyStr
  overlay : Option PyStr
  pageBytes : ℕ
  positive : 1 ≤ pageBytes

/-- The store, the pager, its flights, the calls, and all the manifests that the store has had. -/
structure World where
  config : SegmentPager
  store : StoreFiles
  pager : SemanticPager
  flights : Dict PageKey ℕ
  heap : List Flight
  readers : List Reader
  writers : List Writer
  published : List Manifest

/-- The world in which nothing was called. -/
def World.start (config : SegmentPager) (store : StoreFiles) (maxBytes maxPages : ℕ) : World :=
  ⟨config, store, ⟨config.repository, config.generation, maxBytes, maxPages, .empty, 0, 0⟩, .empty, [], [], [],
    store.manifest.toList ++ store.previous.toList⟩

/-- `f"{start}:{size}"`. -/
def rangeText (start size : ℕ) : PyStr := Json.writeInt start ++ .scalar ':' :: Json.writeInt size

def SegmentPager.key (config : SegmentPager) (name : PyStr) (start size : ℕ) : PageKey :=
  ⟨config.repository, config.generation, config.overlay, name, rangeText start size, SemanticPager.SCHEMA⟩

namespace World

variable (w : World) (i : ℕ)

/-! ## Steps of a reader -/

def readerTo (r : Reader) (pc : ReadAt) : World := { w with readers := w.readers.set i { r with pc := pc } }

/-- The size of the page that starts at `start`. -/
def pageSize (segmentBytes start : ℕ) : ℕ := min w.config.pageBytes (segmentBytes - start)

/-- The last page of a read starts here. -/
def lastStart (r : Reader) : ℕ := (r.offset.toNat + r.size.toNat - 1) / w.config.pageBytes * w.config.pageBytes

/-- `read` up to the loop. -/
def check (r : Reader) : Except ReadRaised ℕ :=
  if r.offset < 0 ∨ r.size < 1 then
    .error (.segmentPager "segment_range_invalid" "offset and size must be positive integers")
  else match readManifest w.store.manifest with
    | .error e => .error (.store e)
    | .ok m =>
      if m.generation ≠ w.config.generation then
        .error (.segmentPager "stale_generation" "pager generation differs from segment manifest")
      else match entryOf m r.name with
        | none => .error (.segmentPager "segment_not_found" (("segment not found: " : PyStr) ++ r.name))
        | some entry =>
          if (entry.bytes : ℤ) < r.offset + r.size then
            .error (.segmentPager "segment_range_out_of_bounds" "requested range exceeds segment")
          else .ok entry.bytes

/-- The page has arrived: its part of the range is kept, and the next page follows, if there is one. -/
def arrive (r : Reader) (segmentBytes start : ℕ) (chunks data : Bytes) : World :=
  let chunk := Bytes.slice data (r.offset.toNat - start)
    (min (r.offset.toNat + r.size.toNat - start) (w.pageSize segmentBytes start))
  if start + w.config.pageBytes ≤ w.lastStart r then
    w.readerTo i r (.page segmentBytes (start + w.config.pageBytes) (chunks ++ chunk) .finding)
  else w.readerTo i r (.done (.ok (chunks ++ chunk)))

/-- The block of `get` that finds the page, or the flight that loads it, or makes one. -/
def find (r : Reader) (segmentBytes start : ℕ) (chunks : Bytes) : World :=
  let key := w.config.key r.name start (w.pageSize segmentBytes start)
  match w.pager.checkKey key with
  | .error e => w.readerTo i r (.done (.error (.pager e)))
  | .ok _ => match w.pager.current key with
    | some page => { w with pager := w.pager.touch key page }.arrive i r segmentBytes start chunks page.data
    | none => match w.flights.get? key with
      | some flight => w.readerTo i r (.page segmentBytes start chunks (.waiting flight))
      | none => { w with flights := w.flights.set key w.heap.length, heap := w.heap ++ [Flight.mk false none] }.readerTo i r
          (.page segmentBytes start chunks (.loading w.heap.length))

/-- The block in which the owner of a flight stores the page. -/
def storePage (r : Reader) (segmentBytes start : ℕ) (chunks : Bytes) (flight : ℕ) (data : Bytes) : World :=
  match w.pager.evict data.length true with
  | (.error e, p) => { w with pager := p }.readerTo i r (.page segmentBytes start chunks (.failing flight (.pager e)))
  | (.ok _, p) =>
    { w with pager := p.insert (w.config.key r.name start (w.pageSize segmentBytes start)) data }.readerTo i r
      (.page segmentBytes start chunks (.removing flight (.ok data)))

def changeFlight (flight : ℕ) (f : Flight → Flight) : World := { w with heap := w.heap.modify flight f }

/-- `read_range` up to the entry of the manifest, which it reads again. -/
def reread (r : Reader) : Except ReadRaised Segment :=
  match readManifest w.store.manifest with
  | .error e => .error (.store e)
  | .ok m => match entryOf m r.name with
    | none => .error (.store (.segmentStoreError (("segment_not_found:" : PyStr) ++ r.name)))
    | some item => .ok item

/-- The bytes of the range, when the file of the segment is mapped. -/
def mapped (item : Segment) (start size : ℕ) : Except ReadRaised Bytes :=
  let whole := if item.bytes = 0 then some [] else w.store.files.get? item.file
  match whole with
  | none => .error (.store (.osError .fileNotFound))
  | some c =>
    if c.length < start + size then .error (.store (.segmentStoreError "segment_range_out_of_bounds"))
    else .ok (Bytes.slice c start (start + size))

/-- The next step of a reader with a page. -/
def turnPage (r : Reader) (segmentBytes start : ℕ) (chunks : Bytes) : PageAt → World
  | .finding => w.find i r segmentBytes start chunks
  | .waiting flight => match w.heap[flight]? with
    | none => w
    | some f =>
      if f.event then match f.error with
        | some e => w.readerTo i r (.done (.error e))
        | none => w.readerTo i r (.page segmentBytes start chunks .finding)
      else w
  | .loading flight => match w.reread r with
    | .error e => w.readerTo i r (.page segmentBytes start chunks (.failing flight e))
    | .ok item => w.readerTo i r (.page segmentBytes start chunks (.validating flight item))
  | .validating flight item => match validateEntry w.store.files item with
    | .error e => w.readerTo i r (.page segmentBytes start chunks (.failing flight (.store e)))
    | .ok _ => w.readerTo i r (.page segmentBytes start chunks (.mapping flight item))
  | .mapping flight item => match w.mapped item start (w.pageSize segmentBytes start) with
    | .error e => w.readerTo i r (.page segmentBytes start chunks (.failing flight e))
    | .ok data => w.readerTo i r (.page segmentBytes start chunks (.storing flight data))
  | .storing flight data => w.storePage i r segmentBytes start chunks flight data
  | .failing flight e => (w.changeFlight flight fun f => { f with error := some e }).readerTo i r
      (.page segmentBytes start chunks (.removing flight (.error e)))
  | .removing flight outcome =>
    let w' := { w.changeFlight flight fun f => { f with event := true } with
      flights := w.flights.erase (w.config.key r.name start (w.pageSize segmentBytes start)) }
    match outcome with
    | .error e => w'.readerTo i r (.done (.error e))
    | .ok data => w'.arrive i r segmentBytes start chunks data

def advanceReader (r : Reader) : World :=
  match r.pc with
  | .checking => match w.check r with
    | .error e => w.readerTo i r (.done (.error e))
    | .ok segmentBytes => w.readerTo i r (.page segmentBytes (r.offset.toNat / w.config.pageBytes * w.config.pageBytes)
        [] .finding)
  | .page segmentBytes start chunks pc => w.turnPage i r segmentBytes start chunks pc
  | .done _ => w

/-! ## Steps of a writer -/

def writerTo (c : Writer) (pc : WriteAt) : World := { w with writers := w.writers.set i { c with pc := pc } }

/-- The manifest becomes the current one. -/
def swap (m : Manifest) : World :=
  { w with store := { w.store with manifest := some m }, published := w.published ++ [m] }

def copy (c : Writer) (name : PyStr) (data : Bytes) (todo : List (PyStr × Bytes)) (progress : Progress) : World :=
  let segments := progress.segments ++ [segmentOf name data]
  match w.store.files.get? (fileName name data) with
  | some existing =>
    if existing.length ≠ data.length ∨ hexdigest existing ≠ hexdigest data then
      w.writerTo i c (.done (some (.segmentStoreError (("segment_existing_checksum_mismatch:" : PyStr) ++ name))))
    else w.writerTo i c (.copying todo { progress with segments := segments, reused := progress.reused + 1 })
  | none => { w with store := { w.store with files := w.store.files.set (fileName name data) data } }.writerTo i c
      (.copying todo { progress with segments := segments, written := progress.written + 1 })

def advanceWriter (c : Writer) : World :=
  match c.pc, c.source with
  | .copying ((name, data) :: todo) progress, _ => w.copy i c name data todo progress
  | .copying [] progress, some source => w.writerTo i c
      (.backing ⟨source.generation, source.sha256, progress.segments, progress.written, progress.reused⟩)
  | .backing m, _ => { w with store := { w.store with previous := w.store.manifest.or w.store.previous } }.writerTo i c
      (.swapping m)
  | .swapping m, _ => (w.swap m).writerTo i c (.done none)
  | .recovering, _ => match readManifest w.store.previous with
    | .error e => w.writerTo i c (.done (some e))
    | .ok m => w.writerTo i c (.validating m m.segments)
  | .validating m (s :: todo), _ => match validateEntry w.store.files s with
    | .error e => w.writerTo i c (.done (some e))
    | .ok _ => w.writerTo i c (.validating m todo)
  | .validating m [], _ => w.writerTo i c (.swapping m)
  | _, _ => w

end World

/-- What happens next: a call begins, or takes its next step. -/
inductive Event
  | read (name : PyStr) (offset size : ℤ)
  | publish (source : Source)
  | recoverPrevious
  | reader (i : ℕ)
  | writer (i : ℕ)

def step (w : World) : Event → World
  | .read name offset size => { w with readers := w.readers ++ [⟨name, offset, size, .checking⟩] }
  | .publish source => { w with
      writers := w.writers ++ [⟨some source, .copying (SegmentStore.ordered source) ⟨[], 0, 0⟩⟩] }
  | .recoverPrevious => { w with writers := w.writers ++ [⟨none, .recovering⟩] }
  | .reader i => match w.readers[i]? with
    | none => w
    | some r => w.advanceReader i r
  | .writer i => match w.writers[i]? with
    | none => w
    | some c => w.advanceWriter i c

end Segments

end SimplicioFast
