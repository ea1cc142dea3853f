import SimplicioFast.Snapshot.Opened

/-!
# Snapshots that were written

The sections of a snapshot that `buildV2` packed are found again when it is opened (`written_of_open`), the texts of its
records are the texts that were added, and so its files, its symbols and its relations are read back: the symbols in the
order of their records, with the kinds that the table of kinds has and the ids cut to 32 bytes.
-/

namespace SimplicioFast

namespace SnapshotFormat

variable {fields : List (ℕ × ℕ)} {blobs row payload pre : Bytes} {sections : List (PyStr × Bytes)} {start generation : ℕ}
  {name : PyStr} {data : Bytes} {offset : ℕ} {rows : List Bytes} {s : OpenSnapshot}

/-! ## Records -/

theorem packRow_eq_ok_iff : packRow fields blobs = .ok row ↔ ∃ b, Struct.pack fields = some b ∧ row = b ++ blobs := by
  unfold packRow
  cases Struct.pack fields with
  | none => exact iff_of_false (fun same => by cases same) fun ⟨b, same, _⟩ => by cases same
  | some b =>
    rw [Except.ok.injEq]
    exact ⟨fun same => ⟨b, rfl, same.symm⟩, fun ⟨b', same, joined⟩ => by cases same; exact joined.symm⟩

theorem unpack_packRow (packed : packRow fields blobs = .ok row) (rest : Bytes) :
    Struct.unpack (fields.map Prod.fst) (row ++ rest) = fields.map Prod.snd := by
  obtain ⟨b, integers, rfl⟩ := packRow_eq_ok_iff.1 packed
  rw [List.append_assoc]
  exact Struct.unpack_pack integers _

theorem length_packRow (packed : packRow fields blobs = .ok row) :
    row.length = (fields.map Prod.fst).sum + blobs.length := by
  obtain ⟨b, integers, rfl⟩ := packRow_eq_ok_iff.1 packed
  rw [List.length_append, Struct.length_pack integers]

theorem slice_packRow (packed : packRow fields blobs = .ok row) {n i j : ℕ} (width : (fields.map Prod.fst).sum = n)
    (behind : n ≤ i) : Bytes.slice row i j = Bytes.slice blobs (i - n) (j - n) := by
  obtain ⟨b, integers, rfl⟩ := packRow_eq_ok_iff.1 packed
  exact Bytes.slice_skip ((Struct.length_pack integers).trans width) behind

/-! ## The layout of the sections -/

theorem le_align (n : ℕ) : n ≤ align n := by
  unfold align
  split
  · exact le_rfl
  · exact Nat.le_add_right _ _

theorem slice_body (length : pre.length = start) (mem : (name, offset, data) ∈ layout start sections) :
    Bytes.slice (pre ++ body start sections) offset (offset + data.length) = data := by
  induction sections generalizing start pre with
  | nil => exact absurd mem List.not_mem_nil
  | cons first rest ih =>
    obtain ⟨name', data'⟩ := first
    have filled : (pre ++ List.replicate (align start - start) 0).length = align start := by
      rw [List.length_append, List.length_replicate, length, Nat.add_sub_cancel' (le_align start)]
    rw [body, ← List.append_assoc, ← List.append_assoc]
    rcases List.mem_cons.1 mem with same | mem
    · cases same
      have here := Bytes.slice_middle (pre ++ List.replicate (align start - start) 0) data (body (align start + data.length) rest)
      rwa [filled] at here
    · refine ih ?_ mem
      rw [List.length_append, filled]

/-! ## The section directory -/

theorem sectionRow_eq_ok (packed : sectionRow (name, offset, data) = .ok row) : ∃ numbers,
    packRow [(8, offset), (8, data.length)] (Sha256.digest data) = .ok numbers ∧
      row = Struct.blob 16 (PyStr.encodeAscii name) ++ numbers := by
  obtain ⟨numbers, integers, rest⟩ := bind_ok.1 packed
  cases rest
  exact ⟨numbers, integers, rfl⟩

theorem length_sectionRow (packed : sectionRow (name, offset, data) = .ok row) : row.length = sectionSize := by
  obtain ⟨numbers, integers, rfl⟩ := sectionRow_eq_ok packed
  rw [List.length_append, Struct.length_blob, length_packRow integers, Sha256.length_digest]
  rfl

/-- The name of a section is read back from its field. -/
def Named (name : PyStr) : Prop := decodeAscii (rstripZeros (Struct.blob 16 (PyStr.encodeAscii name))) = .ok name

theorem readSection_eq_ok {map : Bytes} {directoryEnd : ℕ} {found found' : Dict PyStr (ℕ × ℕ)} (named : Named name)
    (packed : sectionRow (name, offset, data) = .ok row) (read : readSection map directoryEnd found row = .ok found') :
    found.get? name = none ∧ found' = found.set name (offset, data.length) := by
  obtain ⟨numbers, integers, rfl⟩ := sectionRow_eq_ok packed
  have front : (Struct.blob 16 (PyStr.encodeAscii name)).length = 16 := Struct.length_blob
  obtain ⟨name', decoded, read⟩ := bind_ok.1 read
  obtain ⟨⟨⟩, fresh, read⟩ := bind_ok.1 read
  obtain ⟨⟨⟩, -, read⟩ := bind_ok.1 read
  obtain ⟨⟨⟩, -, read⟩ := bind_ok.1 read
  obtain ⟨⟨⟩, -, read⟩ := bind_ok.1 read
  rw [List.take_left' front, show decodeAscii _ = _ from named] at decoded
  obtain rfl := Except.ok.inj decoded
  have region := unpack_packRow integers []
  rw [List.append_nil] at region
  rw [List.drop_left' front, show Struct.unpack sectionWidths numbers = [offset, data.length] from region] at read
  cases read
  have absent := require_eq_ok_iff.1 fresh
  rw [Bool.and_eq_true, Option.isNone_iff_eq_none] at absent
  exact ⟨absent.2, rfl⟩

theorem get?_readSections {map : Bytes} {directory : ℕ × ℕ} {directoryEnd : ℕ} {found found' : Dict PyStr (ℕ × ℕ)}
    {indexes : List ℕ} (listed : ℕ → PyStr × ℕ × Bytes)
    (rows : ∀ i ∈ indexes, Named (listed i).1 ∧ sectionRow (listed i) = .ok (record map directory sectionSize i))
    (read : readSections map directory directoryEnd indexes found = .ok found') :
    (∀ key region, found.get? key = some region → found'.get? key = some region) ∧
      ∀ i ∈ indexes, found'.get? (listed i).1 = some ((listed i).2.1, (listed i).2.2.length) := by
  induction indexes generalizing found with
  | nil =>
    cases read
    exact ⟨fun _ _ there => there, fun _ mem => absurd mem List.not_mem_nil⟩
  | cons i indexes ih =>
    obtain ⟨⟨named, packed⟩, rows⟩ := List.forall_mem_cons.1 rows
    obtain ⟨found₁, first, read⟩ := bind_ok.1 read
    obtain ⟨absent, rfl⟩ := readSection_eq_ok named packed first
    obtain ⟨kept, each⟩ := ih rows read
    refine ⟨fun key region there => kept key region ?_, List.forall_mem_cons.2 ⟨kept _ _ (Dict.get?_set_self _ _ _), each⟩⟩
    rw [Dict.get?_set_of_ne, there]
    rintro rfl
    rw [absent] at there
    cases there

/-! ## Packed sections -/

theorem packSections_eq_ok (packed : packSections sections generation = .ok payload) : ∃ rows total checksum integers,
    (layout (headerSize + sectionSize * sections.length) sections).mapM sectionRow = .ok rows ∧
      packRow [(2, VERSION), (2, ENDIAN_MARKER), (4, sections.length), (8, generation), (8, headerSize),
        (8, sectionSize * sections.length), (8, total)] (Struct.blob 32 checksum) = .ok integers ∧
      payload = MAGIC ++ integers ++ (rows.flatten ++ body (headerSize + sectionSize * sections.length) sections) := by
  obtain ⟨rows, listed, packed⟩ := bind_ok.1 packed
  obtain ⟨⟨⟩, -, packed⟩ := bind_ok.1 packed
  obtain ⟨blank, -, packed⟩ := bind_ok.1 packed
  obtain ⟨sealed, head, packed⟩ := bind_ok.1 packed
  obtain ⟨integers, numbers, head⟩ := bind_ok.1 head
  cases head
  cases packed
  exact ⟨rows, _, _, integers, listed, numbers, rfl⟩

theorem length_layout : (layout start sections).length = sections.length := by
  induction sections generalizing start with
  | nil => rfl
  | cons first rest ih => rw [layout, List.length_cons, List.length_cons, ih]

theorem mem_sections_of_mem_layout (mem : (name, offset, data) ∈ layout start sections) : (name, data) ∈ sections := by
  induction sections generalizing start with
  | nil => exact absurd mem List.not_mem_nil
  | cons first rest ih =>
    obtain ⟨name', data'⟩ := first
    rcases List.mem_cons.1 mem with same | mem
    · cases same
      exact List.mem_cons_self ..
    · exact List.mem_cons_of_mem _ (ih mem)

theorem exists_mem_layout (mem : (name, data) ∈ sections) : ∃ offset, (name, offset, data) ∈ layout start sections := by
  induction sections generalizing start with
  | nil => exact absurd mem List.not_mem_nil
  | cons first rest ih =>
    obtain ⟨name', data'⟩ := first
    rcases List.mem_cons.1 mem with same | mem
    · cases same
      exact ⟨_, List.mem_cons_self ..⟩
    · obtain ⟨offset, mem⟩ := @ih (align start + data'.length) mem
      exact ⟨offset, List.mem_cons_of_mem _ mem⟩

theorem openHeader_eq_ok {row : Bytes} {count total : ℕ} {rest checksum : Bytes} {h : ℕ × ℕ × ℕ}
    (packed : packRow [(2, VERSION), (2, ENDIAN_MARKER), (4, count), (8, generation), (8, headerSize),
      (8, sectionSize * count), (8, total)] checksum = .ok row) (opened : openHeader (MAGIC ++ (row ++ rest)) = .ok h) :
    h = (count, headerSize, sectionSize * count) := by
  have integers : Struct.unpack headerWidths ((MAGIC ++ (row ++ rest)).drop 8) =
      [VERSION, ENDIAN_MARKER, count, generation, headerSize, sectionSize * count, total] := by
    rw [List.drop_left' (show MAGIC.length = 8 from rfl)]
    exact unpack_packRow packed rest
  obtain ⟨⟨⟩, -, opened⟩ := bind_ok.1 opened
  obtain ⟨⟨⟩, -, opened⟩ := bind_ok.1 opened
  obtain ⟨⟨⟩, -, opened⟩ := bind_ok.1 opened
  obtain ⟨⟨⟩, -, opened⟩ := bind_ok.1 opened
  obtain ⟨⟨⟩, -, opened⟩ := bind_ok.1 opened
  obtain ⟨⟨⟩, -, opened⟩ := bind_ok.1 opened
  obtain ⟨⟨⟩, -, opened⟩ := bind_ok.1 opened
  obtain ⟨⟨⟩, -, opened⟩ := bind_ok.1 opened
  obtain ⟨⟨⟩, -, opened⟩ := bind_ok.1 opened
  rw [integers] at opened
  exact (Except.ok.inj opened).symm

def HoldsAt (map : Bytes) (region : ℕ × ℕ) (data : Bytes) : Prop :=
  region.2 = data.length ∧ Bytes.slice map region.1 (region.1 + data.length) = data

theorem holdsAt_of_open {opened : OpenSnapshot} (named : ∀ e ∈ sections, Named e.1)
    (packed : packSections sections generation = .ok payload) (open_ : openSnapshot payload = .ok opened) :
    opened.map = payload ∧ ∃ found : Dict PyStr (ℕ × ℕ), requiredSections found = .ok opened.sections ∧
      opened.fileCount = opened.sections.files.2 / fileSize ∧ opened.symbolCount = opened.sections.symbols.2 / symbolSize ∧
      ∀ e ∈ sections, ∃ region, found.get? e.1 = some region ∧ HoldsAt payload region e.2 := by
  obtain ⟨rows, total, checksum, integers, listed, numbers, rfl⟩ := packSections_eq_ok packed
  rw [List.append_assoc] at open_
  obtain ⟨h, header, open_⟩ := bind_ok.1 open_
  obtain rfl := openHeader_eq_ok numbers header
  obtain ⟨found, read, open_⟩ := bind_ok.1 open_
  obtain ⟨required, regions, open_⟩ := bind_ok.1 open_
  obtain ⟨⟨⟩, -, open_⟩ := bind_ok.1 open_
  obtain ⟨⟨⟩, -, open_⟩ := bind_ok.1 open_
  obtain ⟨⟨⟩, -, open_⟩ := bind_ok.1 open_
  obtain ⟨data, -, open_⟩ := bind_ok.1 open_
  obtain ⟨⟨⟩, -, open_⟩ := bind_ok.1 open_
  obtain ⟨provenance, -, open_⟩ := bind_ok.1 open_
  obtain ⟨relationCount, -, open_⟩ := bind_ok.1 open_
  obtain rfl := Except.ok.inj open_
  refine ⟨List.append_assoc .. |>.symm, found, regions, rfl, rfl, ?_⟩
  have head : (MAGIC ++ integers).length = headerSize := by
    rw [List.length_append, length_packRow numbers, Struct.length_blob]
    rfl
  have each := Except.mapM_eq_ok_iff.1 listed
  have count : rows.length = sections.length := by
    rw [← each.length_eq, length_layout]
  have sizes : ∀ b ∈ rows, b.length = sectionSize := by
    intro b mem
    obtain ⟨⟨name, offset, data⟩, -, row⟩ := (Except.mem_of_mapM_eq_ok listed).1 mem
    exact length_sectionRow row
  have front : (MAGIC ++ integers ++ rows.flatten).length = headerSize + sectionSize * sections.length := by
    rw [List.length_append, head, Struct.length_flatten sizes, count, Nat.mul_comm]
  have row (i : ℕ) (bound : i < rows.length) : record (MAGIC ++ (integers ++ (rows.flatten ++
      body (headerSize + sectionSize * sections.length) sections))) (headerSize, sectionSize * sections.length) sectionSize i =
        rows[i] := by
    have inside : i * sectionSize + sectionSize ≤ rows.flatten.length := by
      rw [Struct.length_flatten sizes, ← Nat.succ_mul]
      exact Nat.mul_le_mul_right _ bound
    rw [record, ← List.append_assoc, ← head, Nat.add_assoc, Bytes.slice_append_right, Bytes.slice_append_left inside]
    exact Struct.slice_flatten sizes bound
  obtain ⟨-, all⟩ := get?_readSections (fun i => ((layout (headerSize + sectionSize * sections.length)
    sections)[i]?).getD ([], 0, [])) (fun i mem => by
      have bound : i < (layout (headerSize + sectionSize * sections.length) sections).length := by
        rw [length_layout]
        exact List.mem_range.1 mem
      have bound' : i < rows.length := by
        rw [count]
        exact List.mem_range.1 mem
      rw [List.getElem?_eq_getElem bound, Option.getD_some, row i bound']
      exact ⟨named _ (mem_sections_of_mem_layout (List.getElem_mem bound)), each.get bound bound'⟩) read
  intro e mem
  obtain ⟨name, data⟩ := e
  obtain ⟨offset, mem⟩ : ∃ offset, (name, offset, data) ∈ layout (headerSize + sectionSize * sections.length) sections :=
    exists_mem_layout mem
  obtain ⟨i, bound, same⟩ := List.getElem_of_mem mem
  have found := all i (List.mem_range.2 (by rwa [length_layout] at bound))
  rw [List.getElem?_eq_getElem bound, Option.getD_some, same] at found
  refine ⟨_, found, rfl, ?_⟩
  rw [← List.append_assoc]
  exact slice_body front mem

/-- The sections of an open snapshot are these bytes. -/
structure Written (s : OpenSnapshot) (fileBytes symbolBytes relationBytes indexBytes stringBytes : Bytes) : Prop where
  files : HoldsAt s.map s.sections.files fileBytes
  symbols : HoldsAt s.map s.sections.symbols symbolBytes
  relations : HoldsAt s.map s.sections.relations relationBytes
  indexes : HoldsAt s.map s.sections.indexes indexBytes
  strings : HoldsAt s.map s.sections.strings stringBytes
  fileCount : s.fileCount = fileBytes.length / fileSize
  symbolCount : s.symbolCount = symbolBytes.length / symbolSize

theorem written_of_open {files symbols relations indexes strings : Bytes}
    (packed : packSections [("files", files), ("symbols", symbols), ("relations", relations), ("indexes", indexes),
      ("strings", strings)] generation = .ok payload) (opened : openSnapshot payload = .ok s) :
    Written s files symbols relations indexes strings := by
  obtain ⟨map, found, required, fileCount, symbolCount, all⟩ := holdsAt_of_open (by
    simp only [List.forall_mem_cons]
    exact ⟨rfl, rfl, rfl, rfl, rfl, fun _ mem => absurd mem List.not_mem_nil⟩) packed opened
  simp only [List.forall_mem_cons] at all
  obtain ⟨⟨r₁, found₁, holds₁⟩, ⟨r₂, found₂, holds₂⟩, ⟨r₃, found₃, holds₃⟩, ⟨r₄, found₄, holds₄⟩, ⟨r₅, found₅, holds₅⟩, -⟩ := all
  rw [requiredSections, found₁, found₂, found₃, found₄, found₅] at required
  have sections := Except.ok.inj required
  rw [← sections] at fileCount symbolCount
  rw [← map] at holds₁ holds₂ holds₃ holds₄ holds₅
  constructor
  · rw [← sections]
    exact holds₁
  · rw [← sections]
    exact holds₂
  · rw [← sections]
    exact holds₃
  · rw [← sections]
    exact holds₄
  · rw [← sections]
    exact holds₅
  · rw [fileCount]
    exact congrArg (· / fileSize) holds₁.1
  · rw [symbolCount]
    exact congrArg (· / symbolSize) holds₂.1

theorem record_of_holdsAt {map : Bytes} {region : ℕ × ℕ} {size i : ℕ} (holds : HoldsAt map region rows.flatten)
    (sizes : ∀ b ∈ rows, b.length = size) (bound : i < rows.length) : record map region size i = rows[i] := by
  have inside : i * size + size ≤ rows.flatten.length := by
    rw [Struct.length_flatten sizes, ← Nat.succ_mul]
    exact Nat.mul_le_mul_right _ bound
  rw [record, Nat.add_assoc, ← Bytes.slice_slice (Nat.add_le_add_left inside region.1), holds.2]
  exact Struct.slice_flatten sizes bound

/-! ## Texts -/

variable {strings strings' files symbols relations indexes : Bytes} {value : PyStr} {length : ℕ}

/-- The text stands in the text section. -/
def TextAt (strings : Bytes) (offset length : ℕ) (value : PyStr) : Prop :=
  offset + length ≤ strings.length ∧ value.encode = some (Bytes.slice strings offset (offset + length))

theorem TextAt.append (there : TextAt strings offset length value) (more : Bytes) :
    TextAt (strings ++ more) offset length value := by
  refine ⟨there.1.trans ?_, ?_⟩
  · rw [List.length_append]
    exact Nat.le_add_right _ _
  · rw [Bytes.slice_append_left there.1]
    exact there.2

theorem addString_eq_ok (added : addString strings value = .ok (strings', offset, length)) :
    (∃ more, strings' = strings ++ more) ∧ TextAt strings' offset length value := by
  unfold addString at added
  split at added
  · cases added
  · rename_i encoded some_
    cases added
    refine ⟨⟨encoded, rfl⟩, ?_, ?_⟩
    · rw [List.length_append]
    · rw [Bytes.slice_append_self _ _ _ rfl]
      exact some_

theorem text_of_textAt (holds : HoldsAt s.map s.sections.strings strings) (there : TextAt strings offset length value) :
    text s offset length = .ok value := by
  have bytes : Bytes.slice s.map (s.sections.strings.1 + offset) (s.sections.strings.1 + offset + length) =
      Bytes.slice strings offset (offset + length) := by
    rw [Nat.add_assoc, ← Bytes.slice_slice (Nat.add_le_add_left there.1 _), holds.2]
  refine bind_ok.2 ⟨⟨⟩, validateText_eq_ok_iff.2 (holds.1 ▸ there.1), ?_⟩
  rw [bytes, PyStr.decode_encode there.2]

/-! ## Files -/

variable {entries : List FileEntry}

def IsFileRow (strings : Bytes) (e : FileEntry) (row : Bytes) : Prop :=
  ∃ offset length fileId, TextAt strings offset length e.path ∧ fileId.length = 16 ∧
    packRow [(4, offset), (4, length), (8, e.size)] (Struct.blob 32 e.digest ++ fileId) = .ok row

theorem IsFileRow.append {e : FileEntry} (h : IsFileRow strings e row) (more : Bytes) : IsFileRow (strings ++ more) e row := by
  obtain ⟨offset, length, fileId, there, width, packed⟩ := h
  exact ⟨offset, length, fileId, there.append more, width, packed⟩

theorem IsFileRow.length_eq {e : FileEntry} (h : IsFileRow strings e row) : row.length = fileSize := by
  obtain ⟨offset, length, fileId, -, width, packed⟩ := h
  rw [length_packRow packed, List.length_append, Struct.length_blob, width]
  rfl

theorem fileRows_eq_ok (made : fileRows strings entries = .ok (strings', rows)) :
    (∃ more, strings' = strings ++ more) ∧ List.Forall₂ (IsFileRow strings') entries rows := by
  induction entries generalizing strings rows with
  | nil =>
    cases made
    exact ⟨⟨[], (List.append_nil _).symm⟩, .nil⟩
  | cons e entries ih =>
    obtain ⟨⟨strings₁, offset, length⟩, added, made⟩ := bind_ok.1 made
    obtain ⟨row, packed, made⟩ := bind_ok.1 made
    obtain ⟨⟨strings₂, rest⟩, more, made⟩ := bind_ok.1 made
    cases made
    obtain ⟨⟨first, rfl⟩, there⟩ := addString_eq_ok added
    obtain ⟨⟨behind, rfl⟩, each⟩ := ih more
    refine ⟨⟨first ++ behind, List.append_assoc ..⟩, .cons ?_ each⟩
    exact ⟨offset, length, _, there.append behind, Struct.length_blob, packed⟩

theorem fileAt_eq_ok {e : FileEntry} {i : ℕ} (holds : HoldsAt s.map s.sections.strings strings)
    (h : IsFileRow strings e row) (there : record s.map s.sections.files fileSize i = row) :
    fileAt s i = .ok (e.path, Struct.blob 32 e.digest) := by
  obtain ⟨offset, length, fileId, path, width, packed⟩ := h
  have integers := unpack_packRow packed []
  rw [List.append_nil] at integers
  unfold fileAt
  rw [there]
  dsimp only
  rw [show Struct.unpack fileWidths row = [offset, length, e.size] from integers]
  refine bind_ok.2 ⟨_, text_of_textAt holds path, ?_⟩
  rw [slice_packRow packed (show _ = 16 from rfl) le_rfl, Bytes.slice_head Struct.length_blob]
  rfl

theorem files_of_written (written : Written s rows.flatten symbols relations indexes strings)
    (each : List.Forall₂ (IsFileRow strings) entries rows) :
    SnapshotFormat.files s = .ok (entries.map fun e => (e.path, Struct.blob 32 e.digest)) := by
  have sizes : ∀ b ∈ rows, b.length = fileSize := by
    intro b mem
    obtain ⟨i, bound, rfl⟩ := List.getElem_of_mem mem
    exact (each.get (each.length_eq.symm ▸ bound) bound).length_eq
  have count : s.fileCount = (entries.map fun e => (e.path, Struct.blob 32 e.digest)).length := by
    rw [written.fileCount, Struct.length_flatten sizes, Nat.mul_div_cancel _ (by decide), List.length_map, each.length_eq]
  rw [SnapshotFormat.files, count]
  refine Except.mapM_range_eq_ok fun i bound => ?_
  rw [List.length_map] at bound
  rw [List.getElem_map]
  exact fileAt_eq_ok written.strings (each.get bound (each.length_eq ▸ bound))
    (record_of_holdsAt written.files sizes (each.length_eq ▸ bound))

/-! ## Symbols -/

variable {casefold : PyStr → PyStr} {symbol : Symbol} {symbols' : List Symbol}

def IsSymbolRow (casefold : PyStr → PyStr) (entries : List FileEntry) (strings : Bytes) (symbol : Symbol) (row : Bytes) :
    Prop :=
  ∃ o₁ l₁ o₂ l₂ o₃ l₃ file id, TextAt strings o₁ l₁ symbol.name ∧ TextAt strings o₂ l₂ symbol.qualifiedName ∧
    TextAt strings o₃ l₃ symbol.signature ∧ fileIndex entries symbol.file = .ok file ∧ fromHex symbol.symbolId = .ok id ∧
    packRow [(4, o₁), (4, l₁), (4, o₂), (4, l₂), (4, o₃), (4, l₃), (4, file), (4, symbol.line), (4, symbol.endLine),
      (4, kindToId casefold symbol.kind)] (Struct.blob 32 id) = .ok row

theorem IsSymbolRow.length_eq (h : IsSymbolRow casefold entries strings symbol row) : row.length = symbolSize := by
  obtain ⟨o₁, l₁, o₂, l₂, o₃, l₃, file, id, -, -, -, -, -, packed⟩ := h
  rw [length_packRow packed, Struct.length_blob]
  rfl

theorem symbolRows_eq_ok (made : symbolRows casefold entries strings symbols' = .ok (strings', rows)) :
    (∃ more, strings' = strings ++ more) ∧ List.Forall₂ (IsSymbolRow casefold entries strings') symbols' rows := by
  induction symbols' generalizing strings rows with
  | nil =>
    cases made
    exact ⟨⟨[], (List.append_nil _).symm⟩, .nil⟩
  | cons symbol symbols' ih =>
    obtain ⟨⟨strings₁, o₁, l₁⟩, name, made⟩ := bind_ok.1 made
    obtain ⟨⟨strings₂, o₂, l₂⟩, qualified, made⟩ := bind_ok.1 made
    obtain ⟨⟨strings₃, o₃, l₃⟩, signature, made⟩ := bind_ok.1 made
    obtain ⟨file, position, made⟩ := bind_ok.1 made
    obtain ⟨id, digest, made⟩ := bind_ok.1 made
    obtain ⟨row, packed, made⟩ := bind_ok.1 made
    obtain ⟨⟨strings₄, rest⟩, more, made⟩ := bind_ok.1 made
    cases made
    obtain ⟨⟨a, rfl⟩, nameAt⟩ := addString_eq_ok name
    obtain ⟨⟨b, rfl⟩, qualifiedAt⟩ := addString_eq_ok qualified
    obtain ⟨⟨c, rfl⟩, signatureAt⟩ := addString_eq_ok signature
    obtain ⟨⟨d, rfl⟩, each⟩ := ih more
    refine ⟨⟨a ++ (b ++ (c ++ d)), by simp only [List.append_assoc]⟩, .cons ?_ each⟩
    exact ⟨o₁, l₁, o₂, l₂, o₃, l₃, file, id, ((nameAt.append b).append c).append d, (qualifiedAt.append c).append d,
      signatureAt.append d, position, digest, packed⟩

theorem getElem?_of_fileIndex {path : PyStr} {file : ℕ} (found : fileIndex entries path = .ok file) :
    entries[file]?.map FileEntry.path = some path := by
  unfold fileIndex at found
  split at found
  · rename_i i there
    cases found
    exact of_decide_eq_true (List.find?_some there :)
  · cases found

theorem kindOfId_kindToId (kind : PyStr) : kindOfId (kindToId casefold kind) = .ok (normalizeKind casefold kind) := by
  have listed : ∀ e ∈ KIND_TO_ID, (Dict.find ID_TO_KIND e.2).isSome = true := by decide
  have table {key : PyStr} {id : ℕ} (found : Dict.find KIND_TO_ID key = some id) : (Dict.find ID_TO_KIND id).isSome = true :=
    listed _ (Dict.mem_of_lookup found)
  have known : (Dict.find ID_TO_KIND (kindToId casefold kind)).isSome = true := by
    unfold kindToId
    split
    · decide
    · dsimp only
      split
      · rename_i id found
        exact table found
      · cases aliased : (Dict.find kindAliases (casefold kind.strip)).bind (Dict.find KIND_TO_ID) with
        | none => decide
        | some id =>
          obtain ⟨key, -, found⟩ := Option.bind_eq_some_iff.1 aliased
          exact table found
  obtain ⟨found, there⟩ := Option.isSome_iff_exists.1 known
  rw [kindOfId, normalizeKind, there]
  rfl

theorem getD_of_fromHex {text : PyStr} {id : Bytes} (read : fromHex text = .ok id) :
    (text.chars?.bind Bytes.fromHex).getD [] = id := by
  unfold fromHex at read
  split at read
  · rename_i b found
    cases read
    rw [found, Option.getD_some]
  · cases read

def readBack (casefold : PyStr → PyStr) (symbol : Symbol) : Symbol where
  name := symbol.name
  qualifiedName := symbol.qualifiedName
  kind := normalizeKind casefold symbol.kind
  file := symbol.file
  line := symbol.line
  endLine := symbol.endLine
  symbolId := PyStr.ofChars (Bytes.hex (Struct.blob 32 ((symbol.symbolId.chars?.bind Bytes.fromHex).getD [])))
  signature := symbol.signature

theorem symbolAt_of_isSymbolRow {i : ℕ} (holds : HoldsAt s.map s.sections.strings strings)
    (h : IsSymbolRow casefold entries strings symbol row) (there : record s.map s.sections.symbols symbolSize i = row) :
    symbolAt s (entries.map FileEntry.path) i = .ok (readBack casefold symbol) := by
  obtain ⟨o₁, l₁, o₂, l₂, o₃, l₃, file, id, name, qualified, signature, position, digest, packed⟩ := h
  have integers := unpack_packRow packed []
  rw [List.append_nil] at integers
  have path : item (entries.map FileEntry.path) file = .ok symbol.file := by
    rw [item, List.getElem?_map, getElem?_of_fileIndex position]
  have blob : Bytes.slice row 40 72 = Struct.blob 32 id := by
    rw [slice_packRow packed (show _ = 40 from rfl) le_rfl]
    have whole := Bytes.slice_zero_length (Struct.blob 32 id)
    rwa [Struct.length_blob] at whole
  have bytes := getD_of_fromHex digest
  unfold symbolAt
  rw [there]
  dsimp only
  rw [show Struct.unpack symbolWidths row = [o₁, l₁, o₂, l₂, o₃, l₃, file, symbol.line, symbol.endLine,
    kindToId casefold symbol.kind] from integers]
  refine bind_ok.2 ⟨_, text_of_textAt holds name, ?_⟩
  refine bind_ok.2 ⟨_, text_of_textAt holds qualified, ?_⟩
  refine bind_ok.2 ⟨_, text_of_textAt holds signature, ?_⟩
  refine bind_ok.2 ⟨_, kindOfId_kindToId symbol.kind, ?_⟩
  refine bind_ok.2 ⟨_, path, ?_⟩
  rw [blob, readBack, bytes]
  rfl

/-! ## Relations -/

def relationValue (r : Relation) : RelationValue where
  origin := .str r.origin
  destination := .str r.destination
  kind := .str r.kind
  confidence := .float r.confidence
  originId := .str r.originId
  destinationId := .str r.destinationId

theorem distinctKeys_relationJson (r : Relation) : (relationJson r).DistinctKeys := by
  refine ⟨?_, trivial, trivial, trivial, trivial, trivial, trivial, trivial⟩
  show relationFields.Nodup
  decide

theorem relationOf_relationJson (r : Relation) : relationOf (relationJson r).sortKeys = .ok (relationValue r) := by
  have field (k : PyStr) (v : Json) (there : ((relationJson r).get? k).map Json.sortKeys = some v) :
      ((relationJson r).sortKeys).get? k = some v := (Json.get?_sortKeys (distinctKeys_relationJson r) k).trans there
  have origin := field "origin" (.str r.origin) rfl
  have destination := field "destination" (.str r.destination) rfl
  have kind := field "kind" (.str r.kind) rfl
  have confidence := field "confidence" (.float r.confidence) rfl
  have originId := field "origin_id" (.str r.originId) rfl
  have destinationId := field "destination_id" (.str r.destinationId) rfl
  obtain ⟨fs, sorted, known⟩ : ∃ fs, (relationJson r).sortKeys = .obj fs ∧ ∀ f ∈ fs, f.1 ∈ relationFields := by
    refine ⟨_, Json.sortKeys_obj _, fun f mem => ?_⟩
    obtain ⟨g, inside, rfl⟩ := Json.mem_sortedFields.1 mem
    have listed : g.1 ∈ relationFields := List.mem_map_of_mem inside
    obtain ⟨k, v⟩ := g
    exact listed
  rw [sorted] at origin destination kind confidence originId destinationId ⊢
  simp only [Json.get?] at origin destination kind confidence originId destinationId
  have known : (fs.all fun f => f.1 ∈ relationFields) = true := by simpa using known
  simp only [relationOf, require, known, origin, destination, kind, confidence, originId, destinationId]
  rfl

theorem dumps_relations (relationList : List Relation) : ∃ d text,
    Json.dumps false (.arr (relationList.map relationJson)) = .scalar '[' :: .scalar d :: text ∧
      (0 < d.toNat ∧ d.toNat < 128) := by
  cases relationList with
  | nil => exact ⟨']', [], rfl, by decide⟩
  | cons r rest =>
    have brace (fields : List (PyStr × Json)) : ∃ text, Json.write false (.obj fields) = .scalar '{' :: text := by
      cases fields <;> exact ⟨_, rfl⟩
    obtain ⟨fields, sorted⟩ : ∃ fields, (relationJson r).sortKeys = .obj fields := ⟨_, Json.sortKeys_obj _⟩
    obtain ⟨text, written⟩ := brace fields
    refine ⟨'{', text ++ Json.writeItems false (Json.sortItems (rest.map relationJson)), ?_, by decide⟩
    rw [Json.dumps, Json.sortKeys, List.map_cons, Json.sortItems, sorted, Json.write, written, List.cons_append]

theorem relations_of_written {relationList : List Relation} {relationBytes : Bytes}
    (holds : HoldsAt s.map s.sections.relations relationBytes)
    (packed : jsonBytes (.arr (relationList.map relationJson)) = .ok relationBytes) :
    SnapshotFormat.relations s = .ok (relationList.map relationValue) := by
  have bytes : regionBytes s.map s.sections.relations = relationBytes := by
    rw [regionBytes, holds.1, holds.2]
  have encoded : (Json.dumps false (.arr (relationList.map relationJson))).encode = some relationBytes := by
    unfold jsonBytes at packed
    split at packed
    · cases packed
    · rename_i b same
      cases packed
      exact same
  have distinct : (Json.arr (relationList.map relationJson)).DistinctKeys :=
    Json.distinctItems_iff.2 (List.forall_mem_map.2 fun r _ => distinctKeys_relationJson r)
  have decoded : PyStr.decodeDetected relationBytes = some (Json.dumps false (.arr (relationList.map relationJson))) := by
    obtain ⟨d, text, start, printable⟩ := dumps_relations relationList
    rw [start] at encoded ⊢
    exact PyStr.decodeDetected_of_start (by decide) printable encoded
  unfold SnapshotFormat.relations loadsBytes
  rw [bytes, decoded, Option.bind_some, Json.loads_dumps _ distinct]
  rw [Json.sortKeys, Json.sortItems_eq_map, List.map_map]
  refine (Except.mapM_eq_ok_iff.2 ?_)
  rw [List.forall₂_map_left_iff, List.forall₂_map_right_iff, List.forall₂_same]
  exact fun r _ => relationOf_relationJson r

theorem readBack_of_buildV2 {relationList : List Relation} {provenance : Option Json}
    (built : buildV2 casefold entries relationList provenance = .ok payload) : ∃ s, openSnapshot payload = .ok s ∧
      SnapshotFormat.files s = .ok (entries.map fun e => (e.path, Struct.blob 32 e.digest)) ∧
      SnapshotFormat.symbols s = .ok ((sortedSymbols casefold entries).map (readBack casefold)) ∧
      SnapshotFormat.relations s = .ok ((sortedRelations relationList).map relationValue) := by
  obtain ⟨⟨strings₁, fileRecords⟩, fileRows_, built⟩ := bind_ok.1 built
  obtain ⟨⟨strings₂, symbolRecords⟩, symbolRows_, built⟩ := bind_ok.1 built
  obtain ⟨checked, -, built⟩ := bind_ok.1 built
  obtain ⟨relationBytes, relationText, built⟩ := bind_ok.1 built
  obtain ⟨indexBytes, -, built⟩ := bind_ok.1 built
  obtain ⟨bytes, packed, built⟩ := bind_ok.1 built
  obtain ⟨s, opened, built⟩ := bind_ok.1 built
  obtain rfl := Except.ok.inj built
  obtain ⟨-, eachFile⟩ := fileRows_eq_ok fileRows_
  obtain ⟨⟨more, rfl⟩, each⟩ := symbolRows_eq_ok symbolRows_
  have written := written_of_open packed opened
  have files := files_of_written written (eachFile.imp fun _ _ h => h.append more)
  refine ⟨s, opened, files, ?_, relations_of_written written.relations relationText⟩
  have sizes : ∀ b ∈ symbolRecords, b.length = symbolSize := by
    intro b mem
    obtain ⟨i, bound, rfl⟩ := List.getElem_of_mem mem
    exact (each.get (each.length_eq.symm ▸ bound) bound).length_eq
  have count : s.symbolCount = ((sortedSymbols casefold entries).map (readBack casefold)).length := by
    rw [written.symbolCount, Struct.length_flatten sizes, Nat.mul_div_cancel _ (by decide), List.length_map, each.length_eq]
  refine bind_ok.2 ⟨_, files, ?_⟩
  have paths : (entries.map fun e => (e.path, Struct.blob 32 e.digest)).map Prod.fst = entries.map FileEntry.path := by
    rw [List.map_map]
    rfl
  rw [paths, count]
  refine Except.mapM_range_eq_ok fun i bound => ?_
  rw [List.length_map] at bound
  rw [List.getElem_map]
  exact symbolAt_of_isSymbolRow written.strings (each.get bound (each.length_eq ▸ bound))
    (record_of_holdsAt written.symbols sizes (each.length_eq ▸ bound))

end SnapshotFormat

end SimplicioFast
