import SimplicioFast.Snapshot.Search

/-!
# What opening a snapshot checks

An open snapshot lies within its file (`InRange`), and every record, relation and index has passed the check that
`Snapshot.__init__` makes of it (`Checked`).
-/

namespace SimplicioFast

namespace SnapshotFormat

theorem require_eq_ok_iff {condition : Bool} {x : SnapshotRaised} {u : Unit} :
    require condition x = .ok u ↔ condition = true := by
  unfold require
  cases condition <;> simp

/-! ## Regions -/

def Inside (map : Bytes) (region : ℕ × ℕ) : Prop := region.1 + region.2 ≤ map.length

theorem inside_of_validateRegion {offset length limit minimum : ℕ} {u : Unit}
    (h : validateRegion offset length limit minimum = .ok u) : offset + length ≤ limit := by
  have bounds := require_eq_ok_iff.1 h
  simp only [Bool.and_eq_true, decide_eq_true_eq] at bounds
  omega

theorem validateText_eq_ok_iff {offset length limit : ℕ} {u : Unit} :
    validateText offset length limit = .ok u ↔ offset + length ≤ limit := by
  unfold validateText
  rw [require_eq_ok_iff, Bool.and_eq_true, decide_eq_true_eq, decide_eq_true_eq]
  omega

theorem inside_readSection {map row : Bytes} {directoryEnd : ℕ} {sections sections' : Dict PyStr (ℕ × ℕ)}
    (inside : ∀ name region, sections.get? name = some region → Inside map region)
    (read : readSection map directoryEnd sections row = .ok sections') :
    ∀ name region, sections'.get? name = some region → Inside map region := by
  obtain ⟨name, -, read⟩ := bind_ok.1 read
  obtain ⟨⟨⟩, -, read⟩ := bind_ok.1 read
  obtain ⟨⟨⟩, valid, read⟩ := bind_ok.1 read
  obtain ⟨⟨⟩, -, read⟩ := bind_ok.1 read
  obtain ⟨⟨⟩, -, read⟩ := bind_ok.1 read
  cases read
  intro name' region found
  rw [Dict.get?_set] at found
  split at found
  · cases found
    exact inside_of_validateRegion valid
  · exact inside name' region found

theorem inside_readSections {map : Bytes} {directory : ℕ × ℕ} {directoryEnd : ℕ} {indexes : List ℕ}
    {sections sections' : Dict PyStr (ℕ × ℕ)}
    (inside : ∀ name region, sections.get? name = some region → Inside map region)
    (read : readSections map directory directoryEnd indexes sections = .ok sections') :
    ∀ name region, sections'.get? name = some region → Inside map region := by
  induction indexes generalizing sections with
  | nil =>
    cases read
    exact inside
  | cons index rest ih =>
    obtain ⟨next, first, read⟩ := bind_ok.1 read
    exact ih (inside_readSection inside first) read

/-- The regions of the required sections lie within the file. -/
structure InRange (s : OpenSnapshot) : Prop where
  files : Inside s.map s.sections.files
  symbols : Inside s.map s.sections.symbols
  relations : Inside s.map s.sections.relations
  indexes : Inside s.map s.sections.indexes
  strings : Inside s.map s.sections.strings

theorem get?_of_requiredSections {found : Dict PyStr (ℕ × ℕ)} {sections : Sections}
    (h : requiredSections found = .ok sections) :
    found.get? "files" = some sections.files ∧ found.get? "symbols" = some sections.symbols ∧
      found.get? "relations" = some sections.relations ∧ found.get? "indexes" = some sections.indexes ∧
      found.get? "strings" = some sections.strings := by
  unfold requiredSections at h
  split at h
  · cases h
    exact ⟨‹_›, ‹_›, ‹_›, ‹_›, ‹_›⟩
  · cases h

/-! ## Records -/

def fileRow (s : OpenSnapshot) (index : ℕ) : List ℕ :=
  Struct.unpack fileWidths (record s.map s.sections.files fileSize index)

def symbolRow (s : OpenSnapshot) (index : ℕ) : List ℕ :=
  Struct.unpack symbolWidths (record s.map s.sections.symbols symbolSize index)

/-- Whether the text with the given number in a record lies within the text section. -/
def TextInside (s : OpenSnapshot) (row : List ℕ) (k : ℕ) : Prop :=
  row.getD (2 * k) 0 + row.getD (2 * k + 1) 0 ≤ s.sections.strings.2

/-- What is checked of a symbol record. -/
structure CheckedSymbol (s : OpenSnapshot) (row : List ℕ) : Prop where
  texts : ∀ k < 3, TextInside s row k
  file : row.getD 6 0 < s.fileCount
  kind : (Dict.find ID_TO_KIND (row.getD 9 0)).isSome

/-- What is checked of the records, the relations and the indexes. -/
structure Checked (s : OpenSnapshot) : Prop where
  fileCount : s.fileCount = s.sections.files.2 / fileSize
  symbolCount : s.symbolCount = s.sections.symbols.2 / symbolSize
  files : ∀ index < s.fileCount, TextInside s (fileRow s index) 0
  symbols : ∀ index < s.symbolCount, CheckedSymbol s (symbolRow s index)
  relations : ∃ values, loadsBytes (regionBytes s.map s.sections.relations) = .ok (.arr values) ∧
    ∀ v ∈ values, validateRelation v = .ok ()
  indexes : ∃ data, indexData s = .ok data ∧
    ∀ key ∈ indexNames, validateIndex s.symbolCount (data.get? key) = .ok ()

theorem checkedSymbol_of_validateSymbol {s : OpenSnapshot} {index : ℕ} {u : Unit}
    (h : validateSymbol s.map s.sections s.fileCount index = .ok u) : CheckedSymbol s (symbolRow s index) := by
  obtain ⟨⟨⟩, name, h⟩ := bind_ok.1 h
  obtain ⟨⟨⟩, qualified, h⟩ := bind_ok.1 h
  obtain ⟨⟨⟩, signature, h⟩ := bind_ok.1 h
  have bounds := require_eq_ok_iff.1 h
  simp only [Bool.and_eq_true, decide_eq_true_eq] at bounds
  obtain ⟨⟨⟨file, -⟩, -⟩, kind⟩ := bounds
  refine ⟨fun k small => ?_, file, kind⟩
  rw [validateText_eq_ok_iff] at name qualified signature
  rcases k with _ | _ | _ | k
  · exact name
  · exact qualified
  · exact signature
  · omega

theorem checked_of_openSnapshot {map : Bytes} {s : OpenSnapshot} (opened : openSnapshot map = .ok s) :
    InRange s ∧ Checked s := by
  obtain ⟨⟨sectionCount, directory⟩, -, opened⟩ := bind_ok.1 opened
  obtain ⟨found, regions, opened⟩ := bind_ok.1 opened
  obtain ⟨sections, required, opened⟩ := bind_ok.1 opened
  obtain ⟨⟨⟩, -, opened⟩ := bind_ok.1 opened
  obtain ⟨⟨⟩, -, opened⟩ := bind_ok.1 opened
  obtain ⟨⟨⟩, -, opened⟩ := bind_ok.1 opened
  obtain ⟨data, -, opened⟩ := bind_ok.1 opened
  obtain ⟨⟨⟩, mapping, opened⟩ := bind_ok.1 opened
  obtain ⟨provenance, provided, opened⟩ := bind_ok.1 opened
  obtain ⟨relationCount, records, opened⟩ := bind_ok.1 opened
  cases opened
  have none : ∀ name region, (Dict.empty : Dict PyStr (ℕ × ℕ)).get? name = some region → Inside map region :=
    fun _ _ absurd => by cases absurd
  have inside := inside_readSections none regions
  obtain ⟨files, symbols, relations, indexes, strings⟩ := get?_of_requiredSections required
  refine ⟨⟨inside _ _ files, inside _ _ symbols, inside _ _ relations, inside _ _ indexes, inside _ _ strings⟩, ?_⟩
  obtain ⟨⟨⟩, fileRecords, records⟩ := bind_ok.1 records
  obtain ⟨⟨⟩, symbolRecords, records⟩ := bind_ok.1 records
  obtain ⟨relationData, loadedRelations, records⟩ := bind_ok.1 records
  obtain ⟨indexData, loadedIndexes, records⟩ := bind_ok.1 records
  obtain ⟨count, relationRecords, records⟩ := bind_ok.1 records
  obtain ⟨⟨⟩, indexRecords, -⟩ := bind_ok.1 records
  rw [Except.forM_eq_ok_iff] at fileRecords symbolRecords indexRecords
  refine ⟨rfl, rfl, fun index small => ?_, fun index small => ?_, ?_, indexData, loadedIndexes, indexRecords⟩
  · exact validateText_eq_ok_iff.1 (fileRecords index (List.mem_range.2 small))
  · exact checkedSymbol_of_validateSymbol (symbolRecords index (List.mem_range.2 small))
  · cases relationData with
    | arr values =>
      obtain ⟨⟨⟩, -, relationRecords⟩ := bind_ok.1 relationRecords
      obtain ⟨⟨⟩, each, -⟩ := bind_ok.1 relationRecords
      exact ⟨values, loadedRelations, Except.forM_eq_ok_iff.1 each⟩
    | _ => cases relationRecords

end SnapshotFormat

end SimplicioFast
