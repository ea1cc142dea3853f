import SimplicioFast.Snapshot.Written

/-!
# Packed sections can be opened

The header, the directory and the checksums that `packSections` writes pass the checks of `openSnapshot`
(`openSnapshot_packSections`): so the records alone decide whether a snapshot is published
(`buildV2_eq_draft`).
-/

namespace SimplicioFast

namespace SnapshotFormat

variable {sections : List (PyStr × Bytes)} {generation start directoryEnd : ℕ} {payload numbers contents : Bytes}
  {rows : List Bytes} {name : PyStr} {data : Bytes} {offset : ℕ}

/-- The parts of packed sections: the rows of the directory, the numbers of the header, and what stands behind the
header. -/
structure Parts (sections : List (PyStr × Bytes)) (generation : ℕ) (payload : Bytes) (rows : List Bytes)
    (numbers contents : Bytes) : Prop where
  listed : (layout (headerSize + sectionSize * sections.length) sections).mapM sectionRow = .ok rows
  integers : Struct.pack [(2, VERSION), (2, ENDIAN_MARKER), (4, sections.length), (8, generation), (8, headerSize),
    (8, sectionSize * sections.length), (8, payload.length)] = some numbers
  bounded : payload.length ≤ MAX_SNAPSHOT_BYTES
  behind : contents = rows.flatten ++ body (headerSize + sectionSize * sections.length) sections
  same : payload = MAGIC ++ numbers ++ Sha256.digest (MAGIC ++ numbers ++ List.replicate 32 0 ++ contents) ++ contents

theorem exists_parts (packed : packSections sections generation = .ok payload) :
    ∃ rows numbers contents, Parts sections generation payload rows numbers contents := by
  obtain ⟨rows, listed, packed⟩ := bind_ok.1 packed
  dsimp only at packed
  generalize behind : rows.flatten ++ body (headerSize + sectionSize * sections.length) sections = contents at packed
  obtain ⟨⟨⟩, bounded, packed⟩ := bind_ok.1 packed
  obtain ⟨blank, first, packed⟩ := bind_ok.1 packed
  obtain ⟨sealed, second, packed⟩ := bind_ok.1 packed
  obtain ⟨blankRow, integers, first⟩ := bind_ok.1 first
  obtain ⟨sealedRow, integers', second⟩ := bind_ok.1 second
  obtain ⟨numbers, numbered, rfl⟩ := packRow_eq_ok_iff.1 integers
  obtain ⟨numbers', numbered', rfl⟩ := packRow_eq_ok_iff.1 integers'
  obtain rfl := Option.some.inj (numbered.symm.trans numbered')
  cases first
  cases second
  cases packed
  have width : numbers.length = 40 := Struct.length_pack numbered
  have length : (MAGIC ++ (numbers ++ Struct.blob 32 (Sha256.digest (MAGIC ++ (numbers ++ Struct.blob 32 []) ++
      contents))) ++ contents).length = headerSize + contents.length := by
    rw [List.length_append, List.length_append, List.length_append, width, Struct.length_blob]
    rfl
  refine ⟨rows, numbers, contents, listed, ?_, ?_, behind.symm, ?_⟩
  · rw [length]
    exact numbered
  · rw [length]
    exact of_decide_eq_true (require_eq_ok_iff.1 bounded)
  · rw [Struct.blob_eq_self (Sha256.length_digest _), show Struct.blob 32 [] = List.replicate 32 0 from rfl]
    simp only [List.append_assoc]

namespace Parts

variable (parts : Parts sections generation payload rows numbers contents)

include parts

theorem length_numbers : numbers.length = 40 := Struct.length_pack parts.integers

theorem sizes : ∀ b ∈ rows, b.length = sectionSize := by
  intro b mem
  obtain ⟨⟨name, offset, data⟩, -, row⟩ := (Except.mem_of_mapM_eq_ok parts.listed).1 mem
  exact length_sectionRow row

theorem length_rows : rows.length = sections.length := by
  rw [← (Except.mapM_eq_ok_iff.1 parts.listed).length_eq, length_layout]

theorem length_flatten : rows.flatten.length = sectionSize * sections.length := by
  rw [Struct.length_flatten parts.sizes, parts.length_rows, Nat.mul_comm]

theorem length_header : (MAGIC ++ numbers ++
    Sha256.digest (MAGIC ++ numbers ++ List.replicate 32 0 ++ contents)).length = headerSize := by
  rw [List.length_append, List.length_append, parts.length_numbers, Sha256.length_digest]
  rfl

theorem length_payload : payload.length = headerSize + contents.length := by
  conv_lhs => rw [parts.same]
  rw [List.length_append, parts.length_header]

theorem length_contents : contents.length =
    sectionSize * sections.length + (body (headerSize + sectionSize * sections.length) sections).length := by
  rw [parts.behind, List.length_append, parts.length_flatten]

/-! ## The header -/

theorem unpack_header : Struct.unpack headerWidths (payload.drop 8) = [VERSION, ENDIAN_MARKER, sections.length, generation,
    headerSize, sectionSize * sections.length, payload.length] := by
  have drop : payload.drop 8 = numbers ++
      (Sha256.digest (MAGIC ++ numbers ++ List.replicate 32 0 ++ contents) ++ contents) := by
    conv_lhs => rw [parts.same]
    rw [List.append_assoc, List.append_assoc, List.drop_left' (show MAGIC.length = 8 from rfl)]
  rw [drop]
  exact Struct.unpack_pack parts.integers _

theorem checksum : Sha256.digest (payload.take 48 ++ List.replicate 32 0 ++ payload.drop headerSize) =
    Bytes.slice payload 48 headerSize := by
  have front : (MAGIC ++ numbers).length = 48 := by
    rw [List.length_append, parts.length_numbers]
    rfl
  have take : payload.take 48 = MAGIC ++ numbers := by
    rw [parts.same, List.append_assoc (MAGIC ++ numbers), List.take_left' front]
  have drop : payload.drop headerSize = contents := by
    conv_lhs => rw [parts.same]
    exact List.drop_left' parts.length_header
  have middle := Bytes.slice_middle (MAGIC ++ numbers)
    (Sha256.digest (MAGIC ++ numbers ++ List.replicate 32 0 ++ contents)) contents
  rw [front, Sha256.length_digest, ← parts.same] at middle
  rw [take, drop]
  exact middle.symm

theorem openHeader_eq_ok (few : 5 ≤ sections.length ∧ sections.length ≤ 32) :
    openHeader payload = .ok (sections.length, headerSize, sectionSize * sections.length) := by
  have length := parts.length_payload
  have inside : sectionSize * sections.length ≤ contents.length := by
    rw [parts.length_contents]
    exact Nat.le_add_right _ _
  have magic : payload.take 8 = MAGIC := by
    rw [parts.same, List.append_assoc, List.append_assoc, List.take_left' (show MAGIC.length = 8 from rfl)]
  have bounded := parts.bounded
  unfold headerSize at length
  unfold openHeader
  rw [parts.unpack_header]
  refine bind_ok.2 ⟨(), require_eq_ok_iff.2 ?_, ?_⟩
  · rw [Bool.and_eq_true, decide_eq_true_eq, decide_eq_true_eq]
    exact ⟨by omega, bounded⟩
  refine bind_ok.2 ⟨(), require_eq_ok_iff.2 (decide_eq_true magic), ?_⟩
  refine bind_ok.2 ⟨(), require_eq_ok_iff.2 (decide_eq_true rfl), ?_⟩
  refine bind_ok.2 ⟨(), require_eq_ok_iff.2 (decide_eq_true ?_), ?_⟩
  · rw [length]
    exact Nat.le_add_right _ _
  refine bind_ok.2 ⟨(), require_eq_ok_iff.2 ?_, ?_⟩
  · rw [Bool.and_eq_true, decide_eq_true_eq, decide_eq_true_eq]
    exact ⟨rfl, rfl⟩
  refine bind_ok.2 ⟨(), require_eq_ok_iff.2 ?_, ?_⟩
  · rw [Bool.and_eq_true, decide_eq_true_eq, decide_eq_true_eq]
    exact few
  refine bind_ok.2 ⟨(), require_eq_ok_iff.2 ?_, ?_⟩
  · rw [Bool.and_eq_true, Bool.and_eq_true, decide_eq_true_eq, decide_eq_true_eq, decide_eq_true_eq]
    show (headerSize ≤ headerSize ∧ headerSize ≤ payload.length) ∧
      sectionSize * sections.length ≤ payload.length - headerSize
    unfold headerSize
    omega
  refine bind_ok.2 ⟨(), require_eq_ok_iff.2 (decide_eq_true (Nat.mul_comm _ _)), ?_⟩
  exact bind_ok.2 ⟨(), require_eq_ok_iff.2 (decide_eq_true parts.checksum), rfl⟩

/-! ## The directory -/

theorem record_eq {i : ℕ} (bound : i < rows.length) :
    record payload (headerSize, sectionSize * sections.length) sectionSize i = rows[i] := by
  have inside : i * sectionSize + sectionSize ≤ rows.flatten.length := by
    rw [Struct.length_flatten parts.sizes, ← Nat.succ_mul]
    exact Nat.mul_le_mul_right _ bound
  have skipped : record payload (headerSize, sectionSize * sections.length) sectionSize i =
      Bytes.slice contents (i * sectionSize) (i * sectionSize + sectionSize) := by
    unfold record
    conv_lhs => rw [parts.same, Nat.add_assoc]
    rw [Bytes.slice_skip parts.length_header (Nat.le_add_right _ _), Nat.add_sub_cancel_left, Nat.add_sub_cancel_left]
  rw [skipped, parts.behind, Bytes.slice_append_left inside]
  exact Struct.slice_flatten parts.sizes bound

end Parts

/-- A section that stands where its row says. -/
structure Placed (map : Bytes) (directoryEnd : ℕ) (s : PyStr × ℕ × Bytes) : Prop where
  named : Named s.1
  nonempty : s.1 ≠ []
  behind : directoryEnd ≤ s.2.1
  aligned : s.2.1 % 8 = 0
  inside : s.2.1 + s.2.2.length ≤ map.length
  holds : Bytes.slice map s.2.1 (s.2.1 + s.2.2.length) = s.2.2

variable {map row : Bytes} {directoryEnd : ℕ} {s : PyStr × ℕ × Bytes} {found : Dict PyStr (ℕ × ℕ)}

theorem readSection_of_placed (placed : Placed map directoryEnd s) (packed : sectionRow s = .ok row)
    (fresh : found.get? s.1 = none) :
    readSection map directoryEnd found row = .ok (found.set s.1 (s.2.1, s.2.2.length)) := by
  obtain ⟨name, offset, data⟩ := s
  obtain ⟨named, nonempty, behind, aligned, inside, holds⟩ := placed
  obtain ⟨numbers, integers, rfl⟩ := sectionRow_eq_ok packed
  have front : (Struct.blob 16 (PyStr.encodeAscii name)).length = 16 := Struct.length_blob
  have region := unpack_packRow integers []
  rw [List.append_nil] at region
  have digest : Bytes.slice (Struct.blob 16 (PyStr.encodeAscii name) ++ numbers) 32 64 = Sha256.digest data := by
    rw [Bytes.slice_skip front (by omega), slice_packRow integers (show _ = 16 from rfl) le_rfl]
    have whole := Bytes.slice_zero_length (Sha256.digest data)
    rwa [Sha256.length_digest] at whole
  unfold readSection
  rw [List.take_left' front, List.drop_left' front, digest,
    show Struct.unpack sectionWidths numbers = [offset, data.length] from region]
  refine bind_ok.2 ⟨name, named, ?_⟩
  refine bind_ok.2 ⟨(), require_eq_ok_iff.2 ?_, ?_⟩
  · rw [fresh, Option.isNone_none, Bool.and_true]
    exact decide_eq_true nonempty
  refine bind_ok.2 ⟨(), require_eq_ok_iff.2 ?_, ?_⟩
  · rw [Bool.and_eq_true, Bool.and_eq_true, decide_eq_true_eq, decide_eq_true_eq, decide_eq_true_eq]
    show (directoryEnd ≤ offset ∧ offset ≤ map.length) ∧ data.length ≤ map.length - offset
    dsimp only at behind inside
    omega
  refine bind_ok.2 ⟨(), require_eq_ok_iff.2 (decide_eq_true aligned), ?_⟩
  refine bind_ok.2 ⟨(), require_eq_ok_iff.2 (decide_eq_true ?_), rfl⟩
  exact congrArg Sha256.digest holds

theorem readSections_of_placed {directory : ℕ × ℕ} {indexes : List ℕ} (listed : ℕ → PyStr × ℕ × Bytes)
    (placed : ∀ i ∈ indexes, Placed map directoryEnd (listed i))
    (rows : ∀ i ∈ indexes, sectionRow (listed i) = .ok (record map directory sectionSize i))
    (fresh : ∀ i ∈ indexes, found.get? (listed i).1 = none) (distinct : (indexes.map fun i => (listed i).1).Nodup) :
    readSections map directory directoryEnd indexes found =
      .ok (indexes.foldl (fun d i => d.set (listed i).1 ((listed i).2.1, (listed i).2.2.length)) found) := by
  induction indexes generalizing found with
  | nil => rfl
  | cons i indexes ih =>
    obtain ⟨first, placed⟩ := List.forall_mem_cons.1 placed
    obtain ⟨row, rows⟩ := List.forall_mem_cons.1 rows
    obtain ⟨new, fresh⟩ := List.forall_mem_cons.1 fresh
    obtain ⟨other, distinct⟩ := List.nodup_cons.1 distinct
    refine bind_ok.2 ⟨_, readSection_of_placed first row new, ?_⟩
    refine ih placed rows (fun j mem => ?_) distinct
    rw [Dict.get?_set_of_ne, fresh j mem]
    intro same
    exact other (List.mem_map.2 ⟨j, mem, same⟩)

/-! ## The layout -/

theorem align_mod (n : ℕ) : align n % 8 = 0 := by
  unfold align
  split <;> omega

theorem of_mem_layout (mem : s ∈ layout start sections) : start ≤ s.2.1 ∧ s.2.1 % 8 = 0 := by
  induction sections generalizing start with
  | nil => exact absurd mem List.not_mem_nil
  | cons first rest ih =>
    obtain ⟨name, data⟩ := first
    rcases List.mem_cons.1 mem with rfl | mem
    · exact ⟨le_align start, align_mod start⟩
    · obtain ⟨behind, aligned⟩ := ih mem
      have first := le_align start
      exact ⟨by omega, aligned⟩

theorem pairwise_layout : (layout start sections).Pairwise fun s t => s.2.1 + s.2.2.length ≤ t.2.1 := by
  induction sections generalizing start with
  | nil => exact .nil
  | cons first rest ih => exact .cons (fun t mem => (of_mem_layout mem).1) ih

theorem layout_inside (mem : s ∈ layout start sections) :
    s.2.1 + s.2.2.length ≤ start + (body start sections).length := by
  induction sections generalizing start with
  | nil => exact absurd mem List.not_mem_nil
  | cons first rest ih =>
    obtain ⟨name, data⟩ := first
    have filled := le_align start
    rw [body, List.length_append, List.length_append, List.length_replicate]
    rcases List.mem_cons.1 mem with rfl | mem
    · dsimp only
      omega
    · have inside := ih mem
      omega

theorem map_fst_layout : (layout start sections).map Prod.fst = sections.map Prod.fst := by
  induction sections generalizing start with
  | nil => rfl
  | cons first rest ih => rw [layout, List.map_cons, List.map_cons, ih]

theorem anyOverlap_eq_false {regions : List (ℕ × ℕ)} (apart : regions.Pairwise fun r s => r.1 + r.2 ≤ s.1) :
    anyOverlap regions = false := by
  induction regions with
  | nil => rfl
  | cons r regions ih =>
    obtain ⟨first, apart⟩ := List.pairwise_cons.1 apart
    rw [anyOverlap, ih apart, Bool.or_false, List.any_eq_false]
    intro t mem
    have after := first t mem
    simp only [overlaps, Bool.and_eq_true, decide_eq_true_eq, not_and, not_lt]
    omega

/-! ## Opening -/

theorem placed_of_mem_layout (parts : Parts sections generation payload rows numbers contents)
    (named : ∀ e ∈ sections, Named e.1 ∧ e.1 ≠ [])
    (mem : s ∈ layout (headerSize + sectionSize * sections.length) sections) :
    Placed payload (headerSize + sectionSize * sections.length) s := by
  obtain ⟨behind, aligned⟩ := of_mem_layout mem
  obtain ⟨name, nonempty⟩ := named _ (mem_sections_of_mem_layout mem)
  have front : (MAGIC ++ numbers ++ Sha256.digest (MAGIC ++ numbers ++ List.replicate 32 0 ++ contents) ++
      rows.flatten).length = headerSize + sectionSize * sections.length := by
    rw [List.length_append, parts.length_header, parts.length_flatten]
  refine ⟨name, nonempty, behind, aligned, ?_, ?_⟩
  · have inside := layout_inside mem
    rw [parts.length_payload, parts.length_contents]
    omega
  · conv_lhs => rw [parts.same, parts.behind, ← List.append_assoc]
    rw [← parts.behind]
    exact slice_body front mem

def regionOf (s : PyStr × ℕ × Bytes) : PyStr × ℕ × ℕ := (s.1, s.2.1, s.2.2.length)

def placedAt (sections : List (PyStr × Bytes)) (i : ℕ) : PyStr × ℕ × Bytes :=
  (layout (headerSize + sectionSize * sections.length) sections).getD i ([], 0, [])

theorem placedAt_eq {i : ℕ} (bound : i < (layout (headerSize + sectionSize * sections.length) sections).length) :
    placedAt sections i = (layout (headerSize + sectionSize * sections.length) sections)[i] := by
  rw [placedAt, List.getD_eq_getElem?_getD, List.getElem?_eq_getElem bound, Option.getD_some]

theorem map_placedAt (sections : List (PyStr × Bytes)) : (List.range sections.length).map (placedAt sections) =
    layout (headerSize + sectionSize * sections.length) sections := by
  refine List.ext_getElem (by rw [List.length_map, List.length_range, length_layout]) fun i bound bound' => ?_
  rw [List.getElem_map, List.getElem_range, placedAt_eq bound']

theorem placedAt_mem {i : ℕ} (mem : i ∈ List.range sections.length) :
    placedAt sections i ∈ layout (headerSize + sectionSize * sections.length) sections := by
  rw [← map_placedAt]
  exact List.mem_map_of_mem mem

theorem nodup_placedAt (distinct : (sections.map Prod.fst).Nodup) :
    ((List.range sections.length).map fun i => (placedAt sections i).1).Nodup := by
  rw [← Function.comp_def Prod.fst, ← List.map_map, map_placedAt, map_fst_layout]
  exact distinct

theorem sectionRow_placedAt (parts : Parts sections generation payload rows numbers contents) {i : ℕ}
    (mem : i ∈ List.range sections.length) : sectionRow (placedAt sections i) =
      .ok (record payload (headerSize, sectionSize * sections.length) sectionSize i) := by
  have bound : i < rows.length := by
    rw [parts.length_rows]
    exact List.mem_range.1 mem
  have inside : i < (layout (headerSize + sectionSize * sections.length) sections).length := by
    rw [length_layout]
    exact List.mem_range.1 mem
  rw [placedAt_eq inside, parts.record_eq bound]
  exact (Except.mapM_eq_ok_iff.1 parts.listed).get inside bound

theorem entries_foldl_placedAt (distinct : (sections.map Prod.fst).Nodup) :
    ((List.range sections.length).foldl (fun (d : Dict PyStr (ℕ × ℕ)) i =>
      d.set (placedAt sections i).1 ((placedAt sections i).2.1, (placedAt sections i).2.2.length)) .empty).entries =
        (layout (headerSize + sectionSize * sections.length) sections).map regionOf := by
  have fold : (List.range sections.length).foldl (fun (d : Dict PyStr (ℕ × ℕ)) i =>
      d.set (placedAt sections i).1 ((placedAt sections i).2.1, (placedAt sections i).2.2.length)) .empty =
        ((layout (headerSize + sectionSize * sections.length) sections).map regionOf).foldl
          (fun d e => d.set e.1 e.2) (.empty : Dict PyStr (ℕ × ℕ)) := by
    rw [← map_placedAt, List.map_map, List.foldl_map]
    rfl
  rw [fold]
  refine Dict.entries_foldl_set (d := .empty) ?_
  show (((layout (headerSize + sectionSize * sections.length) sections).map regionOf).map Prod.fst).Nodup
  rw [List.map_map, show Prod.fst ∘ regionOf = Prod.fst from rfl, map_fst_layout]
  exact distinct

theorem exists_readSections (parts : Parts sections generation payload rows numbers contents)
    (named : ∀ e ∈ sections, Named e.1 ∧ e.1 ≠ []) (distinct : (sections.map Prod.fst).Nodup) :
    ∃ found : Dict PyStr (ℕ × ℕ),
      readSections payload (headerSize, sectionSize * sections.length) (headerSize + sectionSize * sections.length)
        (List.range sections.length) .empty = .ok found ∧
      found.entries = (layout (headerSize + sectionSize * sections.length) sections).map regionOf := by
  refine ⟨_, readSections_of_placed (placedAt sections) (fun i mem => ?_) (fun i mem => ?_) (fun _ _ => rfl)
    (nodup_placedAt distinct), entries_foldl_placedAt distinct⟩
  · exact placed_of_mem_layout parts named (placedAt_mem mem)
  · exact sectionRow_placedAt parts mem

/-- The regions of the sections that `buildV2` packs. -/
def packedRegions (files symbols relations indexes strings : Bytes) : Sections :=
  let start := headerSize + sectionSize * 5
  let files' := align start
  let symbols' := align (files' + files.length)
  let relations' := align (symbols' + symbols.length)
  let indexes' := align (relations' + relations.length)
  let strings' := align (indexes' + indexes.length)
  ⟨(files', files.length), (symbols', symbols.length), (relations', relations.length), (indexes', indexes.length),
    (strings', strings.length)⟩

/-- The part of opening that comes after the directory. -/
def openRecords (map : Bytes) (sections : Sections) : Except SnapshotRaised OpenSnapshot := do
  require (sections.files.2 % fileSize = 0 && sections.symbols.2 % symbolSize = 0)
    (.valueError "section length is not a whole number of records")
  let fileCount := sections.files.2 / fileSize
  let symbolCount := sections.symbols.2 / symbolSize
  require (fileCount ≤ MAX_FILES && symbolCount ≤ MAX_SYMBOLS)
    (.valueError "snapshot record limit exceeded")
  let indexData ← loadsBytes (regionBytes map sections.indexes)
  require (isMapping (some indexData)) (.valueError "invalid index payload")
  let provenance ← validateProvenance (indexData.get? "provenance")
  let relationCount ← validateRecords map sections fileCount symbolCount
  return ⟨map, sections, fileCount, symbolCount, relationCount, provenance⟩

theorem openSnapshot_packSections {files symbols relations indexes strings : Bytes}
    (packed : packSections [("files", files), ("symbols", symbols), ("relations", relations), ("indexes", indexes),
      ("strings", strings)] generation = .ok payload) :
    openSnapshot payload = openRecords payload (packedRegions files symbols relations indexes strings) := by
  obtain ⟨rows, numbers, contents, parts⟩ := exists_parts packed
  obtain ⟨found, read, entries⟩ := exists_readSections parts (by
    simp only [List.forall_mem_cons]
    exact ⟨⟨rfl, by decide⟩, ⟨rfl, by decide⟩, ⟨rfl, by decide⟩, ⟨rfl, by decide⟩, ⟨rfl, by decide⟩,
      fun _ mem => absurd mem List.not_mem_nil⟩) (show REQUIRED_SECTIONS.Nodup by decide)
  have required : requiredSections found = .ok (packedRegions files symbols relations indexes strings) := by
    have there (e : PyStr × ℕ × ℕ) (mem : e ∈ found.entries) : found.get? e.1 = some e.2 :=
      (Dict.get?_eq_some_iff ..).2 mem
    rw [entries] at there
    simp only [layout, List.map_cons, List.map_nil, List.forall_mem_cons, regionOf] at there
    obtain ⟨files, symbols, relations, indexes, strings, -⟩ := there
    rw [requiredSections, files, symbols, relations, indexes, strings]
    rfl
  have apart : anyOverlap found.values = false := by
    refine anyOverlap_eq_false ?_
    rw [Dict.values, entries, List.map_map, List.pairwise_map]
    exact pairwise_layout
  unfold openSnapshot
  rw [parts.openHeader_eq_ok ⟨le_rfl, show 5 ≤ 32 by decide⟩]
  show (readSections _ _ _ _ _ >>= _) = _
  rw [read]
  show (requiredSections _ >>= _) = _
  rw [required]
  show (require _ _ >>= _) = _
  rw [apart]
  rfl

/-- The bytes that `buildV2` packs, before it opens them. -/
def draftV2 (casefold : PyStr → PyStr) (entries : List FileEntry) (relations : List Relation)
    (provenance : Option Json) : Except SnapshotRaised (Bytes × Sections) := do
  let (strings, fileRecords) ← fileRows [] entries
  let symbols := sortedSymbols casefold entries
  let (strings, symbolRecords) ← symbolRows casefold entries strings symbols
  let checked ← validateProvenance (some (provenanceOrDefault provenance))
  let relationBytes ← jsonBytes (.arr ((sortedRelations relations).map relationJson))
  let indexBytes ← jsonBytes (indexes casefold symbols checked)
  let payload ← packSections [("files", fileRecords.flatten), ("symbols", symbolRecords.flatten),
    ("relations", relationBytes), ("indexes", indexBytes), ("strings", strings)]
    (sourceGeneration entries)
  return (payload, packedRegions fileRecords.flatten symbolRecords.flatten relationBytes indexBytes strings)

variable {casefold : PyStr → PyStr} {entries : List FileEntry} {relationList : List Relation} {provenance : Option Json}

theorem openSnapshot_of_draft {draft : Bytes × Sections}
    (drafted : draftV2 casefold entries relationList provenance = .ok draft) :
    openSnapshot draft.1 = openRecords draft.1 draft.2 := by
  obtain ⟨⟨strings₁, fileRecords⟩, -, drafted⟩ := bind_ok.1 drafted
  obtain ⟨⟨strings₂, symbolRecords⟩, -, drafted⟩ := bind_ok.1 drafted
  obtain ⟨checked, -, drafted⟩ := bind_ok.1 drafted
  obtain ⟨relationBytes, -, drafted⟩ := bind_ok.1 drafted
  obtain ⟨indexBytes, -, drafted⟩ := bind_ok.1 drafted
  obtain ⟨payload, packed, drafted⟩ := bind_ok.1 drafted
  obtain rfl := Except.ok.inj drafted
  exact openSnapshot_packSections packed

theorem buildV2_eq_draft : buildV2 casefold entries relationList provenance =
    draftV2 casefold entries relationList provenance >>= fun draft =>
      openRecords draft.1 draft.2 >>= fun _ => .ok draft.1 := by
  have split : buildV2 casefold entries relationList provenance =
      draftV2 casefold entries relationList provenance >>= fun draft => openSnapshot draft.1 >>= fun _ => .ok draft.1 := by
    unfold draftV2
    simp only [bind_assoc, pure_bind]
    rfl
  rw [split]
  cases drafted : draftV2 casefold entries relationList provenance with
  | error x => rfl
  | ok draft =>
    show (openSnapshot draft.1 >>= _) = _
    rw [openSnapshot_of_draft drafted]
    rfl

theorem buildV2_bind_openSnapshot {α : Type} (next : Bytes → OpenSnapshot → Except SnapshotRaised α) :
    (buildV2 casefold entries relationList provenance >>= fun map => openSnapshot map >>= next map) =
      draftV2 casefold entries relationList provenance >>= fun draft =>
        openRecords draft.1 draft.2 >>= next draft.1 := by
  rw [buildV2_eq_draft]
  cases drafted : draftV2 casefold entries relationList provenance with
  | error x => rfl
  | ok draft =>
    have same := openSnapshot_of_draft drafted
    show ((openRecords draft.1 draft.2 >>= fun _ => .ok draft.1) >>= fun map => openSnapshot map >>= next map) =
      openRecords draft.1 draft.2 >>= next draft.1
    cases opened : openRecords draft.1 draft.2 with
    | error x => rfl
    | ok s =>
      show openSnapshot draft.1 >>= next draft.1 = next draft.1 s
      rw [same, opened]
      rfl

end SnapshotFormat

end SimplicioFast
