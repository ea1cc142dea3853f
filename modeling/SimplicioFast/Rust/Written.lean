import SimplicioFast.Rust.Query
import SimplicioFast.Snapshot.Packed

/-!
# Written snapshots in the Rust reader

The Rust reader opens the sections that `packSections` writes (`exists_fromStorage`), when `serde_json` reads the two
JSON sections, and it finds the same texts, files and symbols in their records as the Python reader: but for the kinds,
of which it knows only some numbers.
-/

namespace SimplicioFast

namespace RustCore

open SnapshotFormat (packSections Parts Placed HoldsAt TextAt packedRegions layout sectionRow record sectionSize headerSize
  packRow)

variable {raw row payload numbers contents : Bytes} {rows : List Bytes} {sections : List (PyStr × Bytes)}
  {generation start directoryEnd : ℕ} {found : Dict PyStr (ℕ × ℕ)} {s : PyStr × ℕ × Bytes} {serde : Serde}

theorem ensure_of {condition : Bool} {reason : PyStr} (holds : condition = true) :
    ensure condition reason = .ok () := by
  unfold ensure
  rw [if_pos holds]

/-! ## The header -/

theorem intAt_header (parts : Parts sections generation payload rows numbers contents) :
    intAt 2 payload 8 = VERSION ∧ intAt 2 payload 10 = ENDIAN_MARKER ∧ intAt 4 payload 12 = sections.length ∧
      intAt 8 payload 24 = headerSize ∧ intAt 8 payload 32 = sectionSize * sections.length ∧
      intAt 8 payload 40 = payload.length := by
  have unpacked := parts.unpack_header
  simp only [SnapshotFormat.headerWidths, Struct.unpack, List.drop_drop, List.cons.injEq] at unpacked
  obtain ⟨version, endian, count, -, offset, size, total, -⟩ := unpacked
  exact ⟨version, endian, count, offset, size, total⟩

theorem openHeader_eq_ok (parts : Parts sections generation payload rows numbers contents)
    (few : 5 ≤ sections.length ∧ sections.length ≤ 32) : openHeader payload = .ok (sections.length, headerSize) := by
  obtain ⟨version, endian, count, offset, size, total⟩ := intAt_header parts
  have length := parts.length_payload
  have inside : sectionSize * sections.length ≤ contents.length := by
    rw [parts.length_contents]
    exact Nat.le_add_right _ _
  have magic : payload.take 8 = MAGIC := by
    rw [parts.same, List.append_assoc, List.append_assoc, List.take_left' (show SnapshotFormat.MAGIC.length = 8 from rfl)]
    rfl
  have bounded := parts.bounded
  unfold openHeader
  dsimp only
  rw [version, endian, count, offset, size, total]
  refine bind_ok.2 ⟨(), ensure_of (decide_eq_true ?_), ?_⟩
  · rw [length]
    exact Nat.le_add_right _ _
  refine bind_ok.2 ⟨(), ensure_of (decide_eq_true bounded), ?_⟩
  refine bind_ok.2 ⟨(), ensure_of (decide_eq_true magic), ?_⟩
  refine bind_ok.2 ⟨(), ensure_of rfl, ?_⟩
  refine bind_ok.2 ⟨(), ensure_of (decide_eq_true rfl), ?_⟩
  refine bind_ok.2 ⟨(), ensure_of ?_, ?_⟩
  · simp only [regionValid, Bool.and_eq_true, decide_eq_true_eq]
    refine ⟨⟨⟨⟨few.1, few.2⟩, Nat.mul_comm _ _⟩, le_rfl⟩, ?_, ?_⟩
    · rw [length]
      exact Nat.le_add_right _ _
    · rw [length, Nat.add_sub_cancel_left]
      exact inside
  exact bind_ok.2 ⟨(), ensure_of (decide_eq_true parts.checksum), rfl⟩

/-! ## The directory -/

theorem intAt_of_slice {w offset size : ℕ} (there : Bytes.slice raw start (start + size) = row)
    (inside : offset + w ≤ size) : intAt w raw (start + offset) = intAt w row offset := by
  unfold intAt
  rw [← there, Bytes.slice_slice (by omega), Nat.add_assoc]

theorem readSection_of_placed (placed : Placed raw directoryEnd s) (packed : sectionRow s = .ok row)
    (there : Bytes.slice raw start (start + sectionSize) = row)
    (named : sectionName (Struct.blob 16 (PyStr.encodeAscii s.1)) = .ok s.1) (fresh : found.get? s.1 = none) :
    readSection raw directoryEnd found start = .ok (found.set s.1 (s.2.1, s.2.2.length)) := by
  obtain ⟨name, offset, data⟩ := s
  obtain ⟨-, nonempty, behind, aligned, inside, holds⟩ := placed
  obtain ⟨numbers, integers, rfl⟩ := SnapshotFormat.sectionRow_eq_ok packed
  dsimp only at nonempty behind aligned inside holds named fresh ⊢
  have front : (Struct.blob 16 (PyStr.encodeAscii name)).length = 16 := Struct.length_blob
  have part (i j : ℕ) (le : j ≤ sectionSize) : Bytes.slice raw (start + i) (start + j) =
      Bytes.slice (Struct.blob 16 (PyStr.encodeAscii name) ++ numbers) i j := by
    rw [← there, Bytes.slice_slice (Nat.add_le_add_left le start)]
  have region := SnapshotFormat.unpack_packRow integers []
  simp only [List.append_nil, List.map_cons, List.map_nil, Struct.unpack, List.cons.injEq] at region
  have first : intAt 8 raw (start + 16) = offset := by
    unfold intAt
    rw [Nat.add_assoc, part _ _ (by decide), Bytes.slice_skip front le_rfl]
    exact region.1
  have second : intAt 8 raw (start + 24) = data.length := by
    unfold intAt
    rw [Nat.add_assoc, part _ _ (by decide), Bytes.slice_skip front (by decide)]
    exact region.2.1
  have digest : Bytes.slice raw (start + 32) (start + 64) = Sha256.digest data := by
    rw [part _ _ (by decide), Bytes.slice_skip front (by decide),
      SnapshotFormat.slice_packRow integers (show _ = 16 from rfl) le_rfl]
    have whole := Bytes.slice_zero_length (Sha256.digest data)
    rwa [Sha256.length_digest] at whole
  have title : Bytes.slice raw start (start + 16) = Struct.blob 16 (PyStr.encodeAscii name) := by
    have head := part 0 16 (by decide)
    rwa [Nat.add_zero, Bytes.slice_head front] at head
  unfold readSection
  rw [title, named]
  dsimp only
  rw [first, second, digest]
  refine bind_ok.2 ⟨name, rfl, ?_⟩
  refine bind_ok.2 ⟨(), ensure_of ?_, ?_⟩
  · rw [fresh, Option.isNone_none, Bool.and_true]
    exact decide_eq_true nonempty
  refine bind_ok.2 ⟨(), ensure_of ?_, ?_⟩
  · simp only [regionValid, Bool.and_eq_true, decide_eq_true_eq]
    omega
  refine bind_ok.2 ⟨(), ensure_of (decide_eq_true ?_), rfl⟩
  exact congrArg Sha256.digest holds

theorem readSections_of_placed {directoryOffset : ℕ} {indexes : List ℕ} (listed : ℕ → PyStr × ℕ × Bytes)
    (placed : ∀ i ∈ indexes, Placed raw directoryEnd (listed i))
    (rows : ∀ i ∈ indexes, sectionRow (listed i) = .ok (Bytes.slice raw (directoryOffset + i * SECTION_SIZE)
      (directoryOffset + i * SECTION_SIZE + sectionSize)))
    (named : ∀ i ∈ indexes, sectionName (Struct.blob 16 (PyStr.encodeAscii (listed i).1)) = .ok (listed i).1)
    (fresh : ∀ i ∈ indexes, found.get? (listed i).1 = none) (distinct : (indexes.map fun i => (listed i).1).Nodup) :
    readSections raw directoryOffset directoryEnd indexes found =
      .ok (indexes.foldl (fun d i => d.set (listed i).1 ((listed i).2.1, (listed i).2.2.length)) found) := by
  induction indexes generalizing found with
  | nil => rfl
  | cons i indexes ih =>
    obtain ⟨first, placed⟩ := List.forall_mem_cons.1 placed
    obtain ⟨row, rows⟩ := List.forall_mem_cons.1 rows
    obtain ⟨name, named⟩ := List.forall_mem_cons.1 named
    obtain ⟨new, fresh⟩ := List.forall_mem_cons.1 fresh
    obtain ⟨other, distinct⟩ := List.nodup_cons.1 distinct
    refine bind_ok.2 ⟨_, readSection_of_placed first row rfl name new, ?_⟩
    refine ih placed rows named (fun j mem => ?_) distinct
    rw [Dict.get?_set_of_ne, fresh j mem]
    intro same
    exact other (List.mem_map.2 ⟨j, mem, same⟩)

/-- The sections that `buildV2` packs. -/
abbrev fiveSections (files symbols relations indexes strings : Bytes) : List (PyStr × Bytes) :=
  [("files", files), ("symbols", symbols), ("relations", relations), ("indexes", indexes), ("strings", strings)]

variable {files symbols relations indexes strings : Bytes}

theorem sectionName_required : ∀ name ∈ REQUIRED_SECTIONS,
    sectionName (Struct.blob 16 (PyStr.encodeAscii name)) = .ok name := by
  decide +kernel

theorem exists_readSections
    (parts : Parts (fiveSections files symbols relations indexes strings) generation payload rows numbers contents) :
    ∃ found : Dict PyStr (ℕ × ℕ),
      readSections payload headerSize (headerSize + 5 * SECTION_SIZE) (List.range 5) .empty = .ok found ∧
      found.entries = (layout (headerSize + sectionSize * 5) (fiveSections files symbols relations indexes strings)).map
        SnapshotFormat.regionOf := by
  have names : (fiveSections files symbols relations indexes strings).map Prod.fst = REQUIRED_SECTIONS := rfl
  have distinct : ((fiveSections files symbols relations indexes strings).map Prod.fst).Nodup := by
    rw [names]
    decide
  refine ⟨_, readSections_of_placed (SnapshotFormat.placedAt (fiveSections files symbols relations indexes strings))
    (fun i mem => ?_) (fun i mem => SnapshotFormat.sectionRow_placedAt parts mem) (fun i mem => ?_) (fun _ _ => rfl)
    (SnapshotFormat.nodup_placedAt distinct), SnapshotFormat.entries_foldl_placedAt distinct⟩
  · refine SnapshotFormat.placed_of_mem_layout parts ?_ (SnapshotFormat.placedAt_mem mem)
    simp only [List.forall_mem_cons]
    exact ⟨⟨rfl, by decide⟩, ⟨rfl, by decide⟩, ⟨rfl, by decide⟩, ⟨rfl, by decide⟩, ⟨rfl, by decide⟩,
      fun _ mem => absurd mem List.not_mem_nil⟩
  · refine sectionName_required _ ?_
    rw [← names]
    exact List.mem_map_of_mem (SnapshotFormat.mem_sections_of_mem_layout (SnapshotFormat.placedAt_mem mem))

/-! ## Opening -/

theorem anyOverlap_eq_false {regions : List (ℕ × ℕ)} (apart : regions.Pairwise fun r s => r.1 + r.2 ≤ s.1) :
    anyOverlap regions = false := by
  induction regions with
  | nil => rfl
  | cons r regions ih =>
    obtain ⟨first, apart⟩ := List.pairwise_cons.1 apart
    rw [anyOverlap, ih apart, Bool.or_false, List.any_eq_false]
    intro t mem
    have after := first t mem
    simp only [overlaps, Bool.and_eq_true, decide_eq_true_eq, not_and, not_lt]
    omega

/-- A reader of these sections. -/
structure Holds (r : SnapshotReader) (files symbols relations indexes strings : Bytes) : Prop where
  files : HoldsAt r.bytes (sectionOf r.sections "files") files
  symbols : HoldsAt r.bytes (sectionOf r.sections "symbols") symbols
  relations : HoldsAt r.bytes (sectionOf r.sections "relations") relations
  indexes : HoldsAt r.bytes (sectionOf r.sections "indexes") indexes
  strings : HoldsAt r.bytes (sectionOf r.sections "strings") strings

/-- The Rust reader opens the sections that `packSections` writes, when it can read the relations and the indexes. -/
theorem exists_fromStorage (packed : packSections (fiveSections files symbols relations indexes strings) generation =
      .ok payload) (aligned : files.length % FILE_RECORD_SIZE = 0 ∧ symbols.length % SYMBOL_RECORD_SIZE = 0)
    {read : List RustRelation} (relations_ : serde.relations relations = some read)
    (valid : read.all validRelation = true) {persisted : PersistedIndexes}
    (indexes_ : serde.indexes indexes = some persisted)
    (positions : validatePersistedIndexes persisted (symbols.length / SYMBOL_RECORD_SIZE) = .ok ()) :
    ∃ r, fromStorage serde payload = .ok r ∧ r.bytes = payload ∧ r.indexes = persisted ∧
      Holds r files symbols relations indexes strings := by
  obtain ⟨rows, numbers, contents, parts⟩ := SnapshotFormat.exists_parts packed
  have header := openHeader_eq_ok parts ⟨le_rfl, show 5 ≤ 32 by decide⟩
  obtain ⟨found, directory, entries⟩ := exists_readSections parts
  have placed (s : PyStr × ℕ × Bytes) (mem : s ∈ layout (headerSize + sectionSize * 5)
      (fiveSections files symbols relations indexes strings)) : found.get? s.1 = some (s.2.1, s.2.2.length) ∧
        HoldsAt payload (sectionOf found s.1) s.2.2 := by
    have there : found.get? s.1 = some (s.2.1, s.2.2.length) := by
      refine (Dict.get?_eq_some_iff ..).2 ?_
      rw [entries]
      exact List.mem_map_of_mem mem
    refine ⟨there, ?_⟩
    rw [sectionOf, there]
    refine ⟨rfl, (SnapshotFormat.placed_of_mem_layout parts ?_ mem).holds⟩
    simp only [List.forall_mem_cons]
    exact ⟨⟨rfl, by decide⟩, ⟨rfl, by decide⟩, ⟨rfl, by decide⟩, ⟨rfl, by decide⟩, ⟨rfl, by decide⟩,
      fun _ mem => absurd mem List.not_mem_nil⟩
  simp only [layout, List.forall_mem_cons] at placed
  obtain ⟨⟨files', filesAt⟩, ⟨symbols', symbolsAt⟩, ⟨relations', relationsAt⟩, ⟨indexes', indexesAt⟩,
    ⟨strings', stringsAt⟩, -⟩ := placed
  have apart : anyOverlap found.values = false := by
    rw [Dict.values, entries, List.map_map]
    exact anyOverlap_eq_false (List.pairwise_map.2 SnapshotFormat.pairwise_layout)
  have required : checkRequired found = .ok () := by
    have there (name : PyStr) {region : ℕ × ℕ} (found_ : found.get? name = some region) :
        ¬ (found.get? name).isNone = true := by
      rw [found_]
      exact Bool.false_ne_true
    have all : (REQUIRED_SECTIONS.find? fun name => (found.get? name).isNone) = none := by
      rw [List.find?_eq_none]
      unfold REQUIRED_SECTIONS
      simp only [List.forall_mem_cons]
      exact ⟨there _ files', there _ symbols', there _ relations', there _ indexes', there _ strings',
        fun _ mem => absurd mem List.not_mem_nil⟩
    rw [checkRequired, all]
  have opened : openSections serde payload found = .ok persisted := by
    have relationBytes : sectionBytes payload (sectionOf found "relations") = relations := by
      rw [sectionBytes, relationsAt.1]
      exact relationsAt.2
    have indexBytes : sectionBytes payload (sectionOf found "indexes") = indexes := by
      rw [sectionBytes, indexesAt.1]
      exact indexesAt.2
    unfold openSections
    rw [apart]
    refine bind_ok.2 ⟨(), rfl, bind_ok.2 ⟨(), required, ?_⟩⟩
    refine bind_ok.2 ⟨(), ensure_of ?_, ?_⟩
    · rw [filesAt.1, symbolsAt.1, Bool.and_eq_true, decide_eq_true_eq, decide_eq_true_eq]
      exact aligned
    rw [relationBytes, indexBytes]
    refine bind_ok.2 ⟨[], ?_, ?_⟩
    · unfold relationSection
      rw [relations_]
      exact bind_ok.2 ⟨(), ensure_of valid, by rw [List.take_zero]; rfl⟩
    · dsimp only
      rw [indexes_, symbolsAt.1]
      exact bind_ok.2 ⟨(), positions, rfl⟩
  refine ⟨⟨payload, found, Sha256.digest payload, persisted⟩, bind_ok.2 ⟨_, header,
    bind_ok.2 ⟨_, directory, bind_ok.2 ⟨_, opened, rfl⟩⟩⟩, rfl, rfl, filesAt, symbolsAt,
    relationsAt, indexesAt, stringsAt⟩

/-! ## Records -/

open SnapshotFormat (IsFileRow IsSymbolRow)

variable {r : SnapshotReader} {entries : List FileEntry} {casefold : PyStr → PyStr} {value : PyStr} {offset length i : ℕ}
  {symbol : Symbol} {e : FileEntry} {symbols' : List Symbol}

/-- The symbol as the Rust reader decodes it. -/
def rustSymbol (casefold : PyStr → PyStr) (symbol : Symbol) : Except SnapshotError RustSymbol :=
  (kindName (SnapshotFormat.kindToId casefold symbol.kind)).map fun kind => {
    name := symbol.name
    qualifiedName := symbol.qualifiedName
    kind
    file := symbol.file
    line := symbol.line
    endLine := symbol.endLine
    symbolId := (SnapshotFormat.readBack casefold symbol).symbolId
    signature := symbol.signature }

namespace SnapshotReader

theorem readText_of_textAt (holds : HoldsAt r.bytes (sectionOf r.sections "strings") strings)
    (there : TextAt strings offset length value) : r.readText offset length = .ok value := by
  have bytes : Bytes.slice r.bytes ((sectionOf r.sections "strings").1 + offset)
      ((sectionOf r.sections "strings").1 + offset + length) = Bytes.slice strings offset (offset + length) := by
    rw [Nat.add_assoc, ← Bytes.slice_slice (Nat.add_le_add_left there.1 _), holds.2]
  unfold readText
  dsimp only
  refine bind_ok.2 ⟨(), ensure_of ?_, ?_⟩
  · have inside := there.1
    simp only [regionValid, Bool.and_eq_true, decide_eq_true_eq]
    rw [holds.1]
    omega
  · rw [bytes, PyStr.decode_encode there.2]

theorem length_files (each : List.Forall₂ (IsFileRow strings) entries rows) :
    rows.flatten.length = entries.length * FILE_RECORD_SIZE := by
  rw [Struct.length_flatten, each.length_eq]
  intro b mem
  obtain ⟨i, bound, rfl⟩ := List.getElem_of_mem mem
  exact (each.get (each.length_eq.symm ▸ bound) bound).length_eq

theorem length_symbols (each : List.Forall₂ (IsSymbolRow casefold entries strings) symbols' rows) :
    rows.flatten.length = symbols'.length * SYMBOL_RECORD_SIZE := by
  rw [Struct.length_flatten, each.length_eq]
  intro b mem
  obtain ⟨i, bound, rfl⟩ := List.getElem_of_mem mem
  exact (each.get (each.length_eq.symm ▸ bound) bound).length_eq

theorem fileAt_eq_ok (holds : Holds r rows.flatten symbols relations indexes strings)
    (each : List.Forall₂ (IsFileRow strings) entries rows) (found : entries[i]? = some e) :
    r.fileAt i = .ok e.path ∧ Bytes.slice r.bytes ((sectionOf r.sections "files").1 + i * FILE_RECORD_SIZE + 16)
      ((sectionOf r.sections "files").1 + i * FILE_RECORD_SIZE + 48) = Struct.blob 32 e.digest := by
  obtain ⟨bound, rfl⟩ := List.getElem?_eq_some_iff.1 found
  have bound' : i < rows.length := each.length_eq ▸ bound
  have there := @SnapshotFormat.record_of_holdsAt _ _ _ FILE_RECORD_SIZE _ holds.files (fun b mem => by
    obtain ⟨j, inside, rfl⟩ := List.getElem_of_mem mem
    exact (each.get (each.length_eq.symm ▸ inside) inside).length_eq) bound'
  obtain ⟨offset, length, fileId, path, width, packed⟩ := each.get bound bound'
  have integers := SnapshotFormat.unpack_packRow packed []
  simp only [List.get_eq_getElem, List.append_nil, List.map_cons, List.map_nil, Struct.unpack, List.drop_drop,
    List.cons.injEq] at integers path packed
  unfold SnapshotFormat.record at there
  have first : intAt 4 r.bytes ((sectionOf r.sections "files").1 + i * FILE_RECORD_SIZE) = offset := by
    have moved := @intAt_of_slice _ _ _ 4 0 _ there (by decide)
    rw [Nat.add_zero] at moved
    rw [moved]
    exact integers.1
  have second : intAt 4 r.bytes ((sectionOf r.sections "files").1 + i * FILE_RECORD_SIZE + 4) = length := by
    rw [intAt_of_slice there (by decide)]
    exact integers.2.1
  constructor
  · unfold fileAt
    dsimp only
    refine bind_ok.2 ⟨(), ensure_of (decide_eq_true ?_), ?_⟩
    · rw [holds.files.1, length_files each, Nat.mul_div_cancel _ (by decide)]
      exact bound
    · rw [first, second]
      exact readText_of_textAt holds.strings path
  · rw [Nat.add_assoc, Nat.add_assoc, ← Nat.add_assoc, ← Nat.add_assoc, ← Bytes.slice_slice (j :=
      (sectionOf r.sections "files").1 + i * FILE_RECORD_SIZE + FILE_RECORD_SIZE)
        (Nat.add_le_add_left (show 48 ≤ FILE_RECORD_SIZE by decide) _), there,
      SnapshotFormat.slice_packRow packed (show _ = 16 from rfl) le_rfl, Bytes.slice_head Struct.length_blob]

theorem fileInfo_eq_ok (holds : Holds r rows.flatten symbols relations indexes strings)
    (each : List.Forall₂ (IsFileRow strings) entries rows) :
    r.fileInfo = .ok (entries.map fun e => (e.path, Struct.blob 32 e.digest)) := by
  have count : (sectionOf r.sections "files").2 / FILE_RECORD_SIZE =
      (entries.map fun e => (e.path, Struct.blob 32 e.digest)).length := by
    rw [holds.files.1, length_files each, Nat.mul_div_cancel _ (by decide), List.length_map]
  unfold fileInfo
  dsimp only
  rw [count]
  refine Except.mapM_range_eq_ok fun i bound => ?_
  rw [List.length_map] at bound
  obtain ⟨path, digest⟩ := fileAt_eq_ok holds each (List.getElem?_eq_getElem bound)
  rw [List.getElem_map, digest]
  exact bind_ok.2 ⟨_, path, rfl⟩

theorem symbolAt_eq_ok {fileRecords : List Bytes} (holds : Holds r fileRecords.flatten rows.flatten relations indexes strings)
    (eachFile : List.Forall₂ (IsFileRow strings) entries fileRecords)
    (each : List.Forall₂ (IsSymbolRow casefold entries strings) symbols' rows) (found : symbols'[i]? = some symbol) :
    r.symbolAt i = rustSymbol casefold symbol := by
  obtain ⟨bound, rfl⟩ := List.getElem?_eq_some_iff.1 found
  have bound' : i < rows.length := each.length_eq ▸ bound
  have there := @SnapshotFormat.record_of_holdsAt _ _ _ SYMBOL_RECORD_SIZE _ holds.symbols (fun b mem => by
    obtain ⟨j, inside, rfl⟩ := List.getElem_of_mem mem
    exact (each.get (each.length_eq.symm ▸ inside) inside).length_eq) bound'
  obtain ⟨o₁, l₁, o₂, l₂, o₃, l₃, file, id, name, qualified, signature, position, digest, packed⟩ := each.get bound bound'
  have integers := SnapshotFormat.unpack_packRow packed []
  simp only [List.get_eq_getElem, List.append_nil, List.map_cons, List.map_nil, Struct.unpack, List.drop_drop,
    List.cons.injEq] at integers name qualified signature position digest packed
  unfold SnapshotFormat.record at there
  have number (k : ℕ) (le : k + 4 ≤ 72) : intAt 4 r.bytes ((sectionOf r.sections "symbols").1 + i * SYMBOL_RECORD_SIZE +
      k) = intAt 4 rows[i] k := intAt_of_slice there le
  obtain ⟨n₁, n₂, n₃, n₄, n₅, n₆, n₇, n₈, n₉, n₁₀, -⟩ := integers
  obtain ⟨path, placed⟩ := Option.map_eq_some_iff.1 (SnapshotFormat.getElem?_of_fileIndex position)
  have blob : Bytes.slice r.bytes ((sectionOf r.sections "symbols").1 + i * SYMBOL_RECORD_SIZE + 40)
      ((sectionOf r.sections "symbols").1 + i * SYMBOL_RECORD_SIZE + 72) = Struct.blob 32 id := by
    rw [← Bytes.slice_slice (j := (sectionOf r.sections "symbols").1 + i * SYMBOL_RECORD_SIZE + SYMBOL_RECORD_SIZE)
        (Nat.add_le_add_left (show 72 ≤ SYMBOL_RECORD_SIZE by decide) _), there,
      SnapshotFormat.slice_packRow packed (show _ = 40 from rfl) le_rfl]
    have whole := Bytes.slice_zero_length (Struct.blob 32 id)
    rwa [Struct.length_blob] at whole
  have file_ : r.fileAt file = .ok symbols'[i].file := by
    rw [← placed.2]
    exact (fileAt_eq_ok holds eachFile placed.1).1
  unfold symbolAt
  dsimp only
  rw [number 24 (by decide), number 0 (by decide), number 4 (by decide), number 8 (by decide), number 12 (by decide),
    number 16 (by decide), number 20 (by decide), number 36 (by decide), number 28 (by decide), number 32 (by decide), blob]
  rw [show intAt 4 rows[i] 24 = file from n₇, show intAt 4 rows[i] 0 = o₁ from n₁, show intAt 4 rows[i] 4 = l₁ from n₂,
    show intAt 4 rows[i] 8 = o₂ from n₃, show intAt 4 rows[i] 12 = l₂ from n₄, show intAt 4 rows[i] 16 = o₃ from n₅,
    show intAt 4 rows[i] 20 = l₃ from n₆, show intAt 4 rows[i] 28 = symbols'[i].line from n₈,
    show intAt 4 rows[i] 32 = symbols'[i].endLine from n₉,
    show intAt 4 rows[i] 36 = SnapshotFormat.kindToId casefold symbols'[i].kind from n₁₀]
  rw [file_, readText_of_textAt holds.strings name, readText_of_textAt holds.strings qualified,
    readText_of_textAt holds.strings signature, rustSymbol, SnapshotFormat.readBack, SnapshotFormat.getD_of_fromHex digest]
  rfl

end SnapshotReader

/-! ## Built snapshots -/

/-- How `serde_json` reads the two JSON sections that are written for these symbols and relations. -/
structure SerdeReads (serde : Serde) (casefold : PyStr → PyStr) (symbols : List Symbol) (relationList : List Relation)
    (read : List RustRelation) (persisted : PersistedIndexes) : Prop where
  relations : ∀ bytes, SnapshotFormat.jsonBytes (.arr ((SnapshotFormat.sortedRelations relationList).map
    SnapshotFormat.relationJson)) = .ok bytes → serde.relations bytes = some read
  indexes : ∀ provenance bytes, SnapshotFormat.jsonBytes (SnapshotFormat.indexes casefold symbols provenance) = .ok bytes →
    serde.indexes bytes = some persisted

theorem exists_reader_of_buildV2 {relationList : List Relation} {provenance : Option Json} {read : List RustRelation}
    {persisted : PersistedIndexes}
    (built : SnapshotFormat.buildV2 casefold entries relationList provenance = .ok payload)
    (reads : SerdeReads serde casefold (SnapshotFormat.sortedSymbols casefold entries) relationList read persisted)
    (valid : read.all validRelation = true)
    (positions : validatePersistedIndexes persisted (SnapshotFormat.sortedSymbols casefold entries).length = .ok ()) :
    ∃ r, fromStorage serde payload = .ok r ∧ r.bytes = payload ∧ r.indexes = persisted ∧
      r.fileInfo = .ok (entries.map fun e => (e.path, Struct.blob 32 e.digest)) ∧
      (sectionOf r.sections "symbols").2 / SYMBOL_RECORD_SIZE = (SnapshotFormat.sortedSymbols casefold entries).length ∧
      ∀ i symbol, (SnapshotFormat.sortedSymbols casefold entries)[i]? = some symbol →
        r.symbolAt i = rustSymbol casefold symbol := by
  obtain ⟨⟨strings₁, fileRecords⟩, fileRows_, built⟩ := bind_ok.1 built
  obtain ⟨⟨strings₂, symbolRecords⟩, symbolRows_, built⟩ := bind_ok.1 built
  obtain ⟨checked, -, built⟩ := bind_ok.1 built
  obtain ⟨relationBytes, relationText, built⟩ := bind_ok.1 built
  obtain ⟨indexBytes, indexText, built⟩ := bind_ok.1 built
  obtain ⟨bytes, packed, built⟩ := bind_ok.1 built
  obtain ⟨s, -, built⟩ := bind_ok.1 built
  obtain rfl := Except.ok.inj built
  obtain ⟨-, eachFile⟩ := SnapshotFormat.fileRows_eq_ok fileRows_
  obtain ⟨⟨more, rfl⟩, each⟩ := SnapshotFormat.symbolRows_eq_ok symbolRows_
  have eachFile := eachFile.imp fun _ _ h => h.append more
  have length := SnapshotReader.length_symbols each
  have count : symbolRecords.flatten.length / SYMBOL_RECORD_SIZE =
      (SnapshotFormat.sortedSymbols casefold entries).length := by
    rw [length, Nat.mul_div_cancel _ (by decide)]
  have aligned : fileRecords.flatten.length % FILE_RECORD_SIZE = 0 ∧
      symbolRecords.flatten.length % SYMBOL_RECORD_SIZE = 0 := by
    rw [SnapshotReader.length_files eachFile, length]
    exact ⟨Nat.mul_mod_left _ _, Nat.mul_mod_left _ _⟩
  obtain ⟨r, opened, same, persisted_, holds⟩ := exists_fromStorage packed aligned (reads.relations _ relationText) valid
    (reads.indexes _ _ indexText) (count ▸ positions)
  refine ⟨r, opened, same, persisted_, SnapshotReader.fileInfo_eq_ok holds eachFile, ?_, fun i symbol found => ?_⟩
  · rw [holds.symbols.1]
    exact count
  · exact SnapshotReader.symbolAt_eq_ok holds eachFile each found

end RustCore

end SimplicioFast
