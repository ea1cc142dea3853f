import SimplicioFast.Lib.Numerals
import SimplicioFast.Segments.Pager

/-!
# The bytes that readers get

The bytes of every page in the cache, and of every read that returns, are those of a segment that a manifest of the
pager's generation names (`pages_of_generation`).  `read` compares the generation of the manifest and then reads the
manifest again for each page that it loads, so this needs that the manifest has the generation of the pager still when
it is read again (`Steady`).
-/

namespace SimplicioFast

namespace Segments

variable {w w' : World} {i : ℕ} {r : Reader} {c : Writer} {name : PyStr} {start segmentBytes : ℕ} {chunks data : Bytes}
  {item : Segment} {m : Manifest} {e : Event}

/-! ## Where bytes come from -/

/-- A manifest of the generation of the pager has named the segment. -/
def Names (w : World) (s : Segment) : Prop := ∃ m ∈ w.published, m.generation = w.config.generation ∧ s ∈ m.segments

/-- The byte is the one at this place of a segment that a manifest of the generation of the pager has named. -/
def ByteOf (w : World) (name : PyStr) (place : ℕ) (b : UInt8) : Prop :=
  ∃ s file, Names w s ∧ s.name = name ∧ w.store.files.get? s.file = some file ∧ file[place]? = some b

/-- All the bytes are those of such segments, from this place on. -/
def BytesOf (w : World) (name : PyStr) (start : ℕ) (data : Bytes) : Prop :=
  ∀ k b, data[k]? = some b → ByteOf w name (start + k) b

/-- The page holds the bytes of the range that its key names. -/
def PageOf (w : World) (key : PageKey) (data : Bytes) : Prop :=
  ∀ start size, key.logicalRange = rangeText start size → data.length = size ∧ BytesOf w key.segment start data

/-- What every state should satisfy: the cached pages and the returned bytes are those of the generation of the
pager. -/
structure Faithful (w : World) : Prop where
  cached : ∀ key page, w.pager.pages.get? key = some page → PageOf w key page.data
  returned : ∀ r ∈ w.readers, ∀ data, r.pc = .done (.ok data) → BytesOf w r.name r.offset.toNat data

/-- Whether the reader reads the manifest again next. -/
def Reader.rereads (r : Reader) : Bool :=
  match r.pc with
  | .page _ _ _ (.loading _) => true
  | _ => false

/-- When a reader reads the manifest again, this still has the generation of the pager. -/
def Steady (w : World) : Event → Prop
  | .reader i => w.readers[i]?.any Reader.rereads = true →
      w.store.manifest.all (fun m => m.generation = w.config.generation) = true
  | _ => True

instance (w : World) : (e : Event) → Decidable (Steady w e)
  | .reader i => inferInstanceAs (Decidable (w.readers[i]?.any Reader.rereads = true →
      w.store.manifest.all (fun m => m.generation = w.config.generation) = true))
  | .read _ _ _ | .publish _ | .recoverPrevious | .writer _ => .isTrue trivial

/-! ## What only grows -/

/-- The manifests that the store has had and the files of its segments stay. -/
structure Grows (w w' : World) : Prop where
  config : w'.config = w.config
  published : ∀ m ∈ w.published, m ∈ w'.published
  files : ∀ f c, w.store.files.get? f = some c → w'.store.files.get? f = some c

theorem Grows.of_eq (config : w'.config = w.config) (files : w'.store.files = w.store.files)
    (published : w'.published = w.published) : Grows w w' :=
  ⟨config, fun _ mem => published ▸ mem, fun _ _ there => files ▸ there⟩

theorem Names.mono (grows : Grows w w') {s : Segment} (h : Names w s) : Names w' s := by
  obtain ⟨m, mem, generation, inside⟩ := h
  exact ⟨m, grows.published m mem, grows.config ▸ generation, inside⟩

theorem BytesOf.mono (grows : Grows w w') (h : BytesOf w name start data) : BytesOf w' name start data := by
  intro k b here
  obtain ⟨s, c, names, same, there, byte⟩ := h k b here
  exact ⟨s, c, names.mono grows, same, grows.files _ _ there, byte⟩

theorem PageOf.mono (grows : Grows w w') {key : PageKey} (h : PageOf w key data) : PageOf w' key data :=
  fun start size range => (h start size range).imp_right (BytesOf.mono grows)

/-! ## The invariant -/

/-- What is known of the page that a reader is with. -/
def PageKnown (w : World) (name : PyStr) (segmentBytes start : ℕ) : PageAt → Prop
  | .validating _ item | .mapping _ item => Names w item ∧ item.name = name
  | .storing _ data | .removing _ (.ok data) => data.length = w.pageSize segmentBytes start ∧ BytesOf w name start data
  | _ => True

def ReaderKnown (w : World) (r : Reader) : Prop :=
  match r.pc with
  | .page segmentBytes start chunks pc => r.offset.toNat + r.size.toNat ≤ segmentBytes ∧
      start < r.offset.toNat + r.size.toNat ∧ r.offset.toNat < start + w.config.pageBytes ∧
      r.offset.toNat + chunks.length = max r.offset.toNat start ∧ BytesOf w r.name r.offset.toNat chunks ∧
      PageKnown w r.name segmentBytes start pc
  | .done (.ok data) => BytesOf w r.name r.offset.toNat data
  | _ => True

/-- The invariant of the runs whose steps are all steady. -/
structure Known (w : World) : Prop where
  cached : ∀ key page, w.pager.pages.get? key = some page → PageOf w key page.data
  current : ∀ m, w.store.manifest = some m → m ∈ w.published
  readers : ∀ r ∈ w.readers, ReaderKnown w r

theorem PageKnown.mono (grows : Grows w w') {pc : PageAt} (h : PageKnown w name segmentBytes start pc) :
    PageKnown w' name segmentBytes start pc := by
  have size : w'.pageSize segmentBytes start = w.pageSize segmentBytes start := by
    rw [World.pageSize, World.pageSize, grows.config]
  unfold PageKnown at h ⊢
  split at h
  · exact h.imp_left (Names.mono grows)
  · exact h.imp_left (Names.mono grows)
  · rw [size]
    exact h.imp_right (BytesOf.mono grows)
  · rw [size]
    exact h.imp_right (BytesOf.mono grows)
  · trivial

theorem ReaderKnown.mono (grows : Grows w w') (h : ReaderKnown w r) : ReaderKnown w' r := by
  unfold ReaderKnown at h ⊢
  split at h
  · obtain ⟨inside, below, above, length, bytes, page⟩ := h
    refine ⟨inside, below, ?_, length, bytes.mono grows, page.mono grows⟩
    rw [grows.config]
    exact above
  · exact h.mono grows
  · trivial

theorem Known.faithful (h : Known w) : Faithful w := by
  refine ⟨h.cached, fun r mem data done => ?_⟩
  have known := h.readers r mem
  rw [ReaderKnown, done] at known
  exact known

theorem Known.readerTo (h : Known w) (grows : Grows w w')
    (cached : ∀ key page, w'.pager.pages.get? key = some page → PageOf w' key page.data)
    (current : ∀ m, w'.store.manifest = some m → m ∈ w'.published) (readers : w'.readers = w.readers) {pc : ReadAt}
    (known : ReaderKnown w' { r with pc := pc }) : Known (w'.readerTo i r pc) := by
  have grows' : Grows w' (w'.readerTo i r pc) := .of_eq rfl rfl rfl
  refine ⟨fun key page there => (cached key page there).mono grows', current, fun r' mem => ?_⟩
  rcases List.mem_or_eq_of_mem_set mem with old | rfl
  · exact ((h.readers r' (readers ▸ old)).mono grows).mono grows'
  · exact known.mono grows'

/-! ## The pager -/

/-- `_evict` only removes pages. -/
theorem get?_of_evictLoop {p : SemanticPager} {required rounds : ℕ} {allowEviction : Bool} {key : PageKey} {page : Page}
    (there : (SemanticPager.evictLoop required allowEviction rounds p).2.pages.get? key = some page) :
    p.pages.get? key = some page := by
  induction rounds generalizing p with
  | zero =>
    unfold SemanticPager.evictLoop at there
    split at there <;> exact there
  | succ rounds ih =>
    unfold SemanticPager.evictLoop at there
    split at there
    · split at there
      · exact there
      · have rest := ih there
        rw [SemanticPager.drop, Dict.get?_erase] at rest
        split at rest
        · cases rest
        · exact rest
    · exact there

theorem getElem?_of_slice {b : Bytes} {n j k : ℕ} {x : UInt8} (h : (Bytes.slice b n j)[k]? = some x) :
    b[n + k]? = some x := by
  rw [Bytes.slice, List.getElem?_take] at h
  split at h
  · rwa [List.getElem?_drop] at h
  · cases h

theorem length_slice (b : Bytes) (n j : ℕ) : (Bytes.slice b n j).length = min (j - n) (b.length - n) := by
  rw [Bytes.slice, List.length_take, List.length_drop]

/-! ## Steps of a reader -/

/-- What is known of a reader with a page, without what is known of the page. -/
structure Reading (w : World) (r : Reader) (segmentBytes start : ℕ) (chunks : Bytes) : Prop where
  inside : r.offset.toNat + r.size.toNat ≤ segmentBytes
  below : start < r.offset.toNat + r.size.toNat
  above : r.offset.toNat < start + w.config.pageBytes
  length : r.offset.toNat + chunks.length = max r.offset.toNat start
  bytes : BytesOf w r.name r.offset.toNat chunks

theorem readerKnown_page_iff {pc : PageAt} :
    ReaderKnown w { r with pc := .page segmentBytes start chunks pc } ↔
      Reading w r segmentBytes start chunks ∧ PageKnown w r.name segmentBytes start pc := by
  constructor
  · rintro ⟨inside, below, above, length, bytes, page⟩
    exact ⟨⟨inside, below, above, length, bytes⟩, page⟩
  · rintro ⟨⟨inside, below, above, length, bytes⟩, page⟩
    exact ⟨inside, below, above, length, bytes, page⟩

theorem Reading.append (h : Reading w r segmentBytes start chunks) (bytes : BytesOf w r.name start data) (j : ℕ) :
    BytesOf w r.name r.offset.toNat (chunks ++ Bytes.slice data (r.offset.toNat - start) j) := by
  intro k b here
  rcases lt_or_ge k chunks.length with low | high
  · rw [List.getElem?_append_left low] at here
    exact h.bytes k b here
  · rw [List.getElem?_append_right high] at here
    have byte := bytes _ b (getElem?_of_slice here)
    have place : start + (r.offset.toNat - start + (k - chunks.length)) = r.offset.toNat + k := by
      have := h.length
      omega
    rwa [place] at byte

theorem Known.arrive (h : Known w) (reading : Reading w r segmentBytes start chunks)
    (size : data.length = w.pageSize segmentBytes start) (bytes : BytesOf w r.name start data) :
    Known (w.arrive i r segmentBytes start chunks data) := by
  have grows : Grows w w := .of_eq rfl rfl rfl
  have joined := reading.append bytes
    (min (r.offset.toNat + r.size.toNat - start) (w.pageSize segmentBytes start))
  unfold World.arrive
  dsimp only
  split
  · rename_i more
    refine h.readerTo grows h.cached h.current rfl (readerKnown_page_iff.2 ⟨⟨reading.inside, ?_, ?_, ?_, joined⟩, trivial⟩)
    · have last : w.lastStart r ≤ r.offset.toNat + r.size.toNat - 1 := Nat.div_mul_le_self _ _
      have := reading.below
      omega
    · have := reading.above
      omega
    · have last : w.lastStart r ≤ r.offset.toNat + r.size.toNat - 1 := Nat.div_mul_le_self _ _
      have inside := reading.inside
      have below := reading.below
      have above := reading.above
      have length := reading.length
      have whole : w.pageSize segmentBytes start = w.config.pageBytes := by
        rw [World.pageSize]
        omega
      rw [List.length_append, length_slice, size, whole]
      omega
  · exact h.readerTo grows h.cached h.current rfl joined

theorem Known.withPager (h : Known w) {p : SemanticPager}
    (cached : ∀ key page, p.pages.get? key = some page → PageOf w key page.data) : Known { w with pager := p } := by
  have grows : Grows w { w with pager := p } := .of_eq rfl rfl rfl
  exact ⟨fun key page there => (cached key page there).mono grows, h.current, fun r mem => (h.readers r mem).mono grows⟩

theorem Known.withFlights (h : Known w) (flights : Dict PageKey ℕ) (heap : List Flight) :
    Known { w with flights := flights, heap := heap } := by
  have grows : Grows w { w with flights := flights, heap := heap } := .of_eq rfl rfl rfl
  exact ⟨fun key page there => (h.cached key page there).mono grows, h.current, fun r mem => (h.readers r mem).mono grows⟩

theorem Known.goto (h : Known w) {pc : ReadAt} (known : ReaderKnown w { r with pc := pc }) :
    Known (w.readerTo i r pc) :=
  h.readerTo (.of_eq rfl rfl rfl) h.cached h.current rfl known

theorem Reading.withPager (h : Reading w r segmentBytes start chunks) (p : SemanticPager) :
    Reading { w with pager := p } r segmentBytes start chunks :=
  ⟨h.inside, h.below, h.above, h.length, h.bytes.mono (.of_eq rfl rfl rfl)⟩

theorem Reading.withFlights (h : Reading w r segmentBytes start chunks) (flights : Dict PageKey ℕ) (heap : List Flight) :
    Reading { w with flights := flights, heap := heap } r segmentBytes start chunks :=
  ⟨h.inside, h.below, h.above, h.length, h.bytes.mono (.of_eq rfl rfl rfl)⟩

theorem Known.find (h : Known w) (reading : Reading w r segmentBytes start chunks) :
    Known (w.find i r segmentBytes start chunks) := by
  unfold World.find
  dsimp only
  split
  · exact h.goto trivial
  · split
    · rename_i page found
      have there := (Option.filter_eq_some_iff.1 found).1
      obtain ⟨size, bytes⟩ := h.cached _ page there start _ rfl
      refine (h.withPager fun key page' has => ?_).arrive (reading.withPager _) size (bytes.mono (.of_eq rfl rfl rfl))
      rw [SemanticPager.touch, Dict.get?_set] at has
      split at has
      · rename_i same
        cases has
        rw [same]
        exact h.cached _ page there
      · exact h.cached key page' has
    · split
      · exact h.goto (readerKnown_page_iff.2 ⟨reading, trivial⟩)
      · exact (h.withFlights _ _).goto (readerKnown_page_iff.2 ⟨reading.withFlights _ _, trivial⟩)

theorem Known.storePage (h : Known w) (reading : Reading w r segmentBytes start chunks)
    (size : data.length = w.pageSize segmentBytes start) (bytes : BytesOf w r.name start data) (flight : ℕ) :
    Known (w.storePage i r segmentBytes start chunks flight data) := by
  have kept (key : PageKey) (page : Page) (there : (w.pager.evict data.length true).2.pages.get? key = some page) :
      PageOf w key page.data := h.cached key page (get?_of_evictLoop there)
  unfold World.storePage
  split
  · rename_i e p evicted
    rw [evicted] at kept
    exact (h.withPager kept).goto (readerKnown_page_iff.2 ⟨reading.withPager _, trivial⟩)
  · rename_i p evicted
    rw [evicted] at kept
    have grows (q : SemanticPager) : Grows w { w with pager := q } := .of_eq rfl rfl rfl
    refine (h.withPager fun key page there => ?_).goto
      (readerKnown_page_iff.2 ⟨reading.withPager _, size, bytes.mono (grows _)⟩)
    rw [SemanticPager.insert, Dict.get?_set] at there
    split at there
    · rename_i same
      cases there
      subst same
      intro start' size' range
      obtain ⟨first, second⟩ := Json.writeInt_pair_inj (by decide) (by
        rintro d digit same
        cases same
        exact absurd digit (by decide)) range
      obtain rfl : start = start' := by omega
      obtain rfl : w.pageSize segmentBytes start = size' := by omega
      exact ⟨size, bytes⟩
    · exact kept key page there

theorem readManifest_eq_ok {payload : Option Manifest} (read : readManifest payload = .ok m) : payload = some m := by
  unfold readManifest at read
  split at read
  · cases read
  · obtain ⟨⟨⟩, -, read⟩ := bind_ok.1 read
    obtain ⟨⟨⟩, -, read⟩ := bind_ok.1 read
    obtain ⟨⟨⟩, -, read⟩ := bind_ok.1 read
    cases read
    rfl

theorem names_of_reread (h : Known w)
    (steady : ∀ m, w.store.manifest = some m → m.generation = w.config.generation) (read : w.reread r = .ok item) :
    Names w item ∧ item.name = r.name := by
  unfold World.reread at read
  split at read
  · cases read
  · rename_i m manifest
    have current := readManifest_eq_ok manifest
    split at read
    · cases read
    · rename_i found
      cases read
      have name := List.find?_some found
      exact ⟨⟨m, h.current m current, steady m current, List.mem_of_find?_eq_some found⟩, of_decide_eq_true name⟩

theorem bytesOf_mapped {size : ℕ} (names : Names w item) (name : item.name = r.name)
    (read : w.mapped item start size = .ok data) : data.length = size ∧ BytesOf w r.name start data := by
  unfold World.mapped at read
  dsimp only at read
  split at read
  · cases read
  · rename_i c whole
    split at read
    · cases read
    · rename_i long
      cases read
      refine ⟨?_, fun k b here => ?_⟩
      · rw [length_slice]
        omega
      · have byte := getElem?_of_slice here
        split at whole
        · cases whole
          cases byte
        · exact ⟨item, c, names, name, whole, byte⟩

theorem Known.turnPage (h : Known w) {pc : PageAt} (reading : Reading w r segmentBytes start chunks)
    (known : PageKnown w r.name segmentBytes start pc)
    (steady : ∀ flight, pc = .loading flight → ∀ m, w.store.manifest = some m → m.generation = w.config.generation) :
    Known (w.turnPage i r segmentBytes start chunks pc) := by
  cases pc with
  | finding => exact h.find reading
  | waiting flight =>
    unfold World.turnPage
    dsimp only
    split
    · exact h
    · split
      · split
        · exact h.goto trivial
        · exact h.goto (readerKnown_page_iff.2 ⟨reading, trivial⟩)
      · exact h
  | loading flight =>
    unfold World.turnPage
    dsimp only
    split
    · exact h.goto (readerKnown_page_iff.2 ⟨reading, trivial⟩)
    · rename_i item read
      exact h.goto (readerKnown_page_iff.2 ⟨reading, names_of_reread h (steady flight rfl) read⟩)
  | validating flight item =>
    unfold World.turnPage
    dsimp only
    split
    · exact h.goto (readerKnown_page_iff.2 ⟨reading, trivial⟩)
    · exact h.goto (readerKnown_page_iff.2 ⟨reading, known⟩)
  | mapping flight item =>
    unfold World.turnPage
    dsimp only
    split
    · exact h.goto (readerKnown_page_iff.2 ⟨reading, trivial⟩)
    · rename_i data read
      exact h.goto (readerKnown_page_iff.2 ⟨reading, bytesOf_mapped known.1 known.2 read⟩)
  | storing flight data => exact h.storePage reading known.1 known.2 flight
  | failing flight e =>
    unfold World.turnPage
    exact (h.withFlights w.flights _).goto (readerKnown_page_iff.2 ⟨reading.withFlights _ _, trivial⟩)
  | removing flight outcome =>
    cases outcome with
    | error e => exact (h.withFlights _ _).goto trivial
    | ok data =>
      exact (h.withFlights _ _).arrive (reading.withFlights _ _) known.1 (known.2.mono (.of_eq rfl rfl rfl))

theorem Known.advanceReader (h : Known w) (mem : w.readers[i]? = some r) (steady : Steady w (.reader i)) :
    Known (w.advanceReader i r) := by
  have known := h.readers r (List.mem_of_getElem? mem)
  obtain ⟨name, offset, size, pc⟩ := r
  unfold World.advanceReader
  dsimp only
  cases pc with
  | checking =>
    dsimp only
    split
    · exact h.goto trivial
    · rename_i segmentBytes checked
      unfold World.check at checked
      split at checked
      · cases checked
      · rename_i valid
        split at checked
        · cases checked
        · split at checked
          · cases checked
          · split at checked
            · cases checked
            · split at checked
              · cases checked
              · rename_i entry _ inside
                cases checked
                dsimp only at valid inside
                have low := Nat.div_mul_le_self offset.toNat w.config.pageBytes
                have high := Nat.lt_div_mul_add w.config.positive (a := offset.toNat)
                refine h.goto (readerKnown_page_iff.2 ⟨⟨?_, ?_, high, ?_, ?_⟩, trivial⟩)
                · dsimp only
                  omega
                · dsimp only
                  omega
                · rw [List.length_nil]
                  exact (max_eq_left low).symm
                · intro k b none
                  cases none
  | page segmentBytes start chunks pc =>
    obtain ⟨reading, page⟩ := (readerKnown_page_iff (r := ⟨name, offset, size, .checking⟩)).1 known
    refine h.turnPage ⟨reading.inside, reading.below, reading.above, reading.length, reading.bytes⟩ page ?_
    rintro flight rfl m current
    have same := steady (by
      rw [mem]
      rfl)
    rw [current] at same
    exact of_decide_eq_true same
  | done outcome => exact h

/-! ## Steps of a writer -/

theorem Known.written (h : Known w) (grows : Grows w w') (pager : w'.pager = w.pager) (readers : w'.readers = w.readers)
    (current : ∀ m, w'.store.manifest = some m → m ∈ w'.published) : Known w' := by
  refine ⟨fun key page there => ?_, current, fun r mem => ?_⟩
  · rw [pager] at there
    exact (h.cached key page there).mono grows
  · rw [readers] at mem
    exact (h.readers r mem).mono grows

theorem Known.swap (h : Known w) (m : Manifest) : Known (w.swap m) := by
  refine h.written ⟨rfl, fun _ mem => List.mem_append_left _ mem, fun _ _ there => there⟩ rfl rfl fun m' current => ?_
  cases current
  exact List.mem_append_right _ (List.mem_singleton_self m)

theorem Known.writerTo (h : Known w) (pc : WriteAt) : Known (w.writerTo i c pc) :=
  h.written (.of_eq rfl rfl rfl) rfl rfl h.current

theorem Known.copy (h : Known w) (name : PyStr) (data : Bytes) (todo : List (PyStr × Bytes)) (progress : Progress) :
    Known (w.copy i c name data todo progress) := by
  unfold World.copy
  dsimp only
  split
  · split
    · exact h.writerTo _
    · exact h.writerTo _
  · rename_i absent
    apply Known.writerTo
    refine h.written ⟨rfl, fun _ mem => mem, fun f content there => ?_⟩ rfl rfl h.current
    rw [Dict.get?_set_of_ne]
    · exact there
    · rintro rfl
      rw [absent] at there
      cases there

theorem Known.advanceWriter (h : Known w) : Known (w.advanceWriter i c) := by
  unfold World.advanceWriter
  split
  · exact h.copy _ _ _ _
  · exact h.writerTo _
  · apply Known.writerTo
    exact h.written (.of_eq rfl rfl rfl) rfl rfl h.current
  · exact (h.swap _).writerTo _
  · split
    · exact h.writerTo _
    · exact h.writerTo _
  · split
    · exact h.writerTo _
    · exact h.writerTo _
  · exact h.writerTo _
  · exact h

/-! ## Runs -/

theorem Known.step (h : Known w) (steady : Steady w e) : Known (step w e) := by
  cases e with
  | read name offset size =>
    have grows : Grows w (Segments.step w (.read name offset size)) := .of_eq rfl rfl rfl
    refine ⟨fun key page there => (h.cached key page there).mono grows, h.current, fun r mem => ?_⟩
    rcases List.mem_append.1 mem with old | new
    · exact (h.readers r old).mono grows
    · cases List.mem_singleton.1 new
      trivial
  | publish source => exact h.written (.of_eq rfl rfl rfl) rfl rfl h.current
  | recoverPrevious => exact h.written (.of_eq rfl rfl rfl) rfl rfl h.current
  | reader i =>
    unfold Segments.step
    dsimp only
    split
    · exact h
    · rename_i r mem
      exact h.advanceReader mem steady
  | writer i =>
    unfold Segments.step
    dsimp only
    split
    · exact h
    · exact h.advanceWriter

theorem known_start (config : SegmentPager) (store : StoreFiles) (maxBytes maxPages : ℕ) :
    Known (World.start config store maxBytes maxPages) := by
  refine ⟨fun key page there => ?_, fun m current => ?_, fun r mem => absurd mem List.not_mem_nil⟩
  · simp [World.start] at there
  · have current : store.manifest = some m := current
    rw [World.start, List.mem_append, current]
    exact .inl (List.mem_singleton_self m)

/-- In every run in which the manifest is steady when readers read it again, the cached pages and the returned bytes are
those of segments that manifests of the generation of the pager name. -/
theorem pages_of_generation {config : SegmentPager} {store : StoreFiles} {maxBytes maxPages : ℕ} {events : List Event}
    (steady : Machine.Along step Steady (World.start config store maxBytes maxPages) events) :
    Faithful (Machine.run step (World.start config store maxBytes maxPages) events) :=
  (steady.run_invariant (known_start config store maxBytes maxPages) fun _ _ h next => h.step next).faithful

/-- A snapshot with one section of one byte. -/
def oneByte (generation : PyStr) (b : UInt8) : Source :=
  ⟨[("s", [b])], generation, List.replicate 64 (.scalar 'a'), List.nodup_singleton _⟩

def samplePager : SegmentPager := ⟨"r", "g1", none, 16, by decide +kernel⟩

/-- All the steps of the publish with the number `i`. -/
def publishing (source : Source) (i : ℕ) : List Event := .publish source :: List.replicate 4 (.writer i)

/-- A read between two publishes. -/
theorem pages_of_generation_sample :
    Faithful (Machine.run step (World.start samplePager ⟨none, none, .empty⟩ 64 4)
      (publishing (oneByte "g1" 1) 0 ++ .read "s" 0 1 :: List.replicate 7 (.reader 0) ++
        publishing (oneByte "g2" 2) 1)) :=
  pages_of_generation (by decide +kernel)

/-- The reader has returned the byte 2 for the first byte of `s`. -/
def hasReadTwo (r : Reader) : Bool :=
  match r.pc with
  | .done (.ok data) => r.name = ("s") && r.offset = 0 && data = [2]
  | _ => false

/-- A publish between the two looks at the manifest. -/
theorem not_faithful_publish :
    ¬ Faithful (Machine.run step (World.start samplePager ⟨none, none, .empty⟩ 64 4)
      (publishing (oneByte "g1" 1) 0 ++ .read "s" 0 1 :: .reader 0 :: .reader 0 :: publishing (oneByte "g2" 2) 1 ++
        List.replicate 5 (.reader 0))) := by
  intro faithful
  have wrong : ∀ w : World, w.readers.any hasReadTwo = true → (w.published.all fun m => m.generation ≠ w.config.generation ||
        m.segments.all fun s => (w.store.files.get? s.file).all fun file => file[0]? ≠ some 2) = true → ¬ Faithful w := by
    intro w returned other faithful
    obtain ⟨r, mem, here⟩ := List.any_eq_true.1 returned
    unfold hasReadTwo at here
    split at here
    · rename_i data done
      rw [Bool.and_eq_true, Bool.and_eq_true, decide_eq_true_eq, decide_eq_true_eq, decide_eq_true_eq] at here
      obtain ⟨⟨-, offset⟩, rfl⟩ := here
      have bytes := faithful.returned r mem [2] done
      rw [offset] at bytes
      obtain ⟨s, c, ⟨m, inside, generation, named⟩, -, there, byte⟩ := bytes 0 2 rfl
      have apart := List.all_eq_true.1 other m inside
      rw [generation, decide_eq_false (not_not.2 rfl), Bool.false_or] at apart
      have apart := List.all_eq_true.1 apart s named
      rw [there] at apart
      exact of_decide_eq_true apart byte
    · cases here
  exact wrong _ (by decide +kernel) (by decide +kernel) faithful

end Segments

end SimplicioFast
