import SimplicioFast.Streaming.Files

/-!
# Reading what is published

A generation is published when its manifest lists blocks that fit its segment.  Then `readAll` returns the segment and
`readRange` the slices of it (`readAll_of_published`, `readRange_of_published`).
-/

namespace SimplicioFast

namespace Streaming

open Crash FileSystem

variable {intText : PyStr → Option ℤ} {fs : FileSystem} {root : List PyStr} {generation name : PyStr} {blockBytes : ℤ}
  {data : Bytes} {v : Json} {vs : List Json} {digest : PyStr} {n start length cursor : ℕ} {result : Bytes}

/-! ## Blocks that fit a segment -/

/-- The entry lists a block of this length and digest. -/
def Lists (intText : PyStr → Option ℤ) (v : Json) (n : ℕ) (digest : PyStr) : Prop :=
  ∃ fields x, v = .obj fields ∧ Dict.find fields "length" = some x ∧ intOf intText x = .ok n ∧
    Dict.find fields "sha256" = some (.str digest)

/-- The entries list the blocks that the data consists of. -/
def Fits (intText : PyStr → Option ℤ) : List Json → Bytes → Prop
  | [], data => data = []
  | v :: vs, data => ∃ n, (1 ≤ n ∧ n ≤ data.length) ∧ Lists intText v n (hexdigest (data.take n)) ∧
      Fits intText vs (data.drop n)

theorem intOf_sortKeys (v : Json) : intOf intText v.sortKeys = intOf intText v := by
  cases v <;> rfl

theorem Lists.sortKeys (lists : Lists intText v n digest) (distinct : v.DistinctKeys) :
    Lists intText v.sortKeys n digest := by
  obtain ⟨fields, x, rfl, found, int, sha⟩ := lists
  refine ⟨Json.sortedFields fields, x.sortKeys, rfl, ?_, ?_, ?_⟩
  · refine (Json.get?_sortKeys distinct "length").trans ?_
    rw [show (Json.obj fields).get? "length" = some x from found]
    rfl
  · rw [intOf_sortKeys, int]
  · refine (Json.get?_sortKeys distinct "sha256").trans ?_
    rw [show (Json.obj fields).get? "sha256" = some (.str digest) from sha]
    rfl

theorem Fits.sortKeys (fits : Fits intText vs data) (distinct : ∀ v ∈ vs, v.DistinctKeys) :
    Fits intText (vs.map Json.sortKeys) data := by
  induction vs generalizing data with
  | nil => exact fits
  | cons v vs ih =>
    obtain ⟨n, inside, lists, fits⟩ := fits
    obtain ⟨first, distinct⟩ := List.forall_mem_cons.1 distinct
    exact ⟨n, inside, lists.sortKeys first, ih fits distinct⟩

/-! ## The loop over the blocks -/

theorem slice_append_slice {i j k : ℕ} (first : i ≤ j) (last : j ≤ k) (b : Bytes) :
    Bytes.slice b i j ++ Bytes.slice b j k = Bytes.slice b i k := by
  have width : k - i = (j - i) + (k - j) := by omega
  have place : i + (j - i) = j := by omega
  rw [Bytes.slice, Bytes.slice, Bytes.slice, width, List.take_add, List.drop_drop, place]

theorem slice_of_le {i j : ℕ} (h : j ≤ i) (b : Bytes) : Bytes.slice b i j = [] := by
  rw [Bytes.slice, Nat.sub_eq_zero_of_le h, List.take_zero]

theorem slice_step {blockEnd : ℕ} (here : cursor < start + length) (order : cursor ≤ blockEnd) (b : Bytes) :
    Bytes.slice b start (min (start + length) cursor) ++
        (if cursor < start + length ∧ start < blockEnd then
          Bytes.slice b (max start cursor) (min (start + length) blockEnd) else []) =
      Bytes.slice b start (min (start + length) blockEnd) := by
  rw [min_eq_right here.le]
  by_cases reach : start < blockEnd
  · rw [if_pos ⟨here, reach⟩]
    rcases le_total start cursor with before | behind
    · rw [max_eq_right before]
      exact slice_append_slice before (by omega) b
    · rw [max_eq_left behind, slice_of_le behind, List.nil_append]
  · rw [if_neg fun both => reach both.2, slice_of_le (by omega), slice_of_le (by omega)]
    rfl

theorem blockLength_of_lists (lists : Lists intText v n digest) : blockLength intText v = .ok n := by
  obtain ⟨fields, x, rfl, found, int, -⟩ := lists
  have read : (subscript (.obj fields) "length").bind (intOf intText) = .ok n := by
    rw [subscript, found]
    exact int
  rw [blockLength, read]

theorem readPiece_of_lists {blockEnd : ℕ} (order : cursor ≤ blockEnd) (inside : blockEnd ≤ data.length)
    (lists : Lists intText v n (hexdigest (Bytes.slice data cursor blockEnd))) :
    readPiece data start length cursor blockEnd v = .ok (if cursor < start + length ∧ start < blockEnd then
      Bytes.slice data (max start cursor) (min (start + length) blockEnd) else []) := by
  obtain ⟨fields, x, rfl, -, -, sha⟩ := lists
  unfold readPiece
  split
  · rename_i reach
    have size : (Bytes.slice data cursor blockEnd).length = blockEnd - cursor := by
      rw [Bytes.slice, List.length_take, List.length_drop]
      omega
    have low : cursor + (max start cursor - cursor) = max start cursor := by omega
    have high : cursor + (min (start + length) blockEnd - cursor) = min (start + length) blockEnd := by omega
    refine bind_ok.2 ⟨(), check_eq_ok_iff.2 (decide_eq_true size), ?_⟩
    refine bind_ok.2 ⟨_, rfl, ?_⟩
    refine bind_ok.2 ⟨(), check_eq_ok_iff.2 (isEqual_str_iff.2 sha), ?_⟩
    show Except.ok _ = _
    rw [Bytes.slice_slice (by omega), low, high]
  · rfl

theorem readBlocks_of_fits (fits : Fits intText vs (data.drop cursor)) (here : cursor < start + length)
    (inside : start + length ≤ data.length) : ∃ last, start + length ≤ last ∧
      readBlocks intText data data.length start length cursor (Bytes.slice data start (min (start + length) cursor)) vs =
        .ok (last, Bytes.slice data start (start + length)) := by
  induction vs generalizing cursor with
  | nil =>
    have short := congrArg List.length fits
    rw [List.length_drop, List.length_nil] at short
    omega
  | cons v vs ih =>
    obtain ⟨n, ⟨one, size⟩, lists, fits⟩ := fits
    rw [List.length_drop] at size
    have width : cursor + n - cursor = n := by omega
    have slice : Bytes.slice data cursor (cursor + n) = (data.drop cursor).take n := by rw [Bytes.slice, width]
    have piece := @readPiece_of_lists _ _ _ _ start length _ _ (Nat.le_add_right cursor n) (by omega)
      (slice ▸ lists)
    rw [List.drop_drop] at fits
    have object : isObject v = true := by
      obtain ⟨fields, -, rfl, -⟩ := lists
      rfl
    have bounds : (decide ((1 : ℤ) ≤ n) && decide ((cursor : ℤ) + n ≤ data.length)) = true := by
      rw [Bool.and_eq_true_iff, decide_eq_true_iff, decide_eq_true_iff]
      omega
    have step : readBlocks intText data data.length start length cursor
          (Bytes.slice data start (min (start + length) cursor)) (v :: vs) =
        if start + length ≤ cursor + n then
          .ok (cursor + n, Bytes.slice data start (min (start + length) (cursor + n)))
        else readBlocks intText data data.length start length (cursor + n)
          (Bytes.slice data start (min (start + length) (cursor + n))) vs := by
      rw [readBlocks, object, blockLength_of_lists lists, ← slice_step here (Nat.le_add_right cursor n)]
      show (check _ _ _ >>= fun _ => readPiece data start length cursor (cursor + n) v >>= fun piece => _) = _
      rw [bounds, piece]
      rfl
    rw [step]
    split
    · rename_i done
      exact ⟨cursor + n, done, by rw [min_eq_left done]⟩
    · rename_i more
      exact ih fits (by omega)

/-! ## Published generations -/

/-- The blocks of a checkpoint can be written to a file and read back. -/
def Writable (vs : List Json) : Prop := (∀ v ∈ vs, v.DistinctKeys) ∧ ∀ v ∈ vs, v.Unpaired

theorem distinctKeys_manifest {p : Progress} (writable : Writable p.checkpoint.blocks) :
    (Json.obj (manifest generation blockBytes p)).DistinctKeys := by
  have keys : (["schema", "generation", "block_bytes", "input_bytes", "source_sha256", "blocks", "segment"] :
    List PyStr).Nodup := by decide
  exact ⟨keys, trivial, trivial, trivial, trivial, trivial, Json.distinctItems_iff.2 writable.1, trivial, trivial⟩

theorem unpaired_manifest {p : Progress} (writable : Writable p.checkpoint.blocks) (unpaired : generation.Unpaired) :
    (Json.obj (manifest generation blockBytes p)).Unpaired :=
  ⟨⟨PyStr.unpaired_ofChars _, PyStr.unpaired_ofChars _⟩, ⟨PyStr.unpaired_ofChars _, unpaired⟩,
    ⟨PyStr.unpaired_ofChars _, trivial⟩, ⟨PyStr.unpaired_ofChars _, trivial⟩,
    ⟨PyStr.unpaired_ofChars _, unpaired_hexdigest _⟩, ⟨PyStr.unpaired_ofChars _, Json.itemsUnpaired_iff.2 writable.2⟩,
    ⟨PyStr.unpaired_ofChars _, PyStr.unpaired_ofChars _⟩, trivial⟩

/-- The manifest is that of the data, of its digest at least, and lists its blocks. -/
structure Describes (intText : PyStr → Option ℤ) (m : Json) (data : Bytes) : Prop where
  exists_manifest : ∃ generation blockBytes p, m = .obj (manifest generation blockBytes p) ∧ generation.Unpaired ∧
    Writable p.checkpoint.blocks ∧ p.inputBytes = data.length ∧ hexdigest p.source = hexdigest data ∧
    Fits intText p.checkpoint.blocks data

/-- A generation that is published: a manifest, and the segment that it describes. -/
structure Published (intText : PyStr → Option ℤ) (root work : List PyStr) (data : Bytes) (fs : FileSystem) : Prop where
  top : fs.IsDir root
  dir : fs.IsDir work
  segment : fs.content (segmentPath work) = some data
  manifest : ∃ m, fs.content (manifestPath work) = some (jsonBytes m) ∧ Describes intText m data

variable {store : StreamingBlockStore}

/-- What a reader finds in the manifest. -/
structure Found (intText : PyStr → Option ℤ) (m : Json) (data : Bytes) : Prop where
  schema : m.get? "schema" = some (.str SCHEMA)
  segment : m.get? "segment" = some (.str "segment-000000.bin")
  inputBytes : m.get? "input_bytes" = some (.int data.length)
  sourceSha256 : m.get? "source_sha256" = some (.str (hexdigest data))
  blocks : ∃ vs, m.get? "blocks" = some (.arr vs) ∧ Fits intText vs data
  isObj : ∃ fields, m = .obj fields

theorem found_sortKeys {m : Json} (describes : Describes intText m data) : Found intText m.sortKeys data := by
  obtain ⟨generation, blockBytes, p, rfl, -, writable, input, source, fits⟩ := describes.exists_manifest
  have distinct := @distinctKeys_manifest generation blockBytes _ writable
  have get (k : PyStr) {v : Json} (found : (Json.obj (manifest generation blockBytes p)).get? k = some v) :
      (Json.obj (manifest generation blockBytes p)).sortKeys.get? k = some v.sortKeys := by
    rw [Json.get?_sortKeys distinct, found, Option.map_some]
  have schema := get "schema" (v := .str SCHEMA) rfl
  have inputBytes := get "input_bytes" (v := .int p.inputBytes) rfl
  have sourceSha256 := get "source_sha256" (v := .str (hexdigest p.source)) rfl
  have blocks := get "blocks" (v := .arr p.checkpoint.blocks) rfl
  have segment := get "segment" (v := .str "segment-000000.bin") rfl
  rw [input] at inputBytes
  rw [source] at sourceSha256
  refine ⟨schema, segment, inputBytes, sourceSha256, ⟨_, blocks, ?_⟩, _, rfl⟩
  · rw [Json.sortItems_eq_map]
    exact fits.sortKeys writable.1

namespace Published

variable (published : Published intText store.root (child store.root name) data fs) (named : Named generation name)

include published named

theorem loadManifest_eq : ∃ m, loadManifest store generation fs = .ok m ∧ Found intText m data := by
  obtain ⟨m, written, describes⟩ := published.manifest
  refine ⟨m.sortKeys, ?_, found_sortKeys describes⟩
  obtain ⟨generation', blockBytes, p, rfl, unpaired, writable, -⟩ := describes.exists_manifest
  rw [loadManifest, fileAt_eq named plain_manifest published.top published.dir]
  exact readJson_jsonBytes (distinctKeys_manifest writable) (unpaired_manifest writable unpaired) written

theorem contentAt_eq : (do contentAt fs (← fileAt store.root generation "segment-000000.bin" fs)) = .ok data := by
  rw [fileAt_eq named plain_segment published.top published.dir]
  show contentAt fs (segmentPath (child store.root name)) = _
  rw [contentAt, content_eq_some_iff.1 published.segment]

end Published

theorem subscript_of_get? {m v : Json} {k : PyStr} (found : m.get? k = some v) : subscript m k = .ok v := by
  cases m with
  | obj fields => rw [subscript, show Dict.find fields k = some v from found]
  | _ => cases found

theorem readAll_of_published (published : Published intText store.root (child store.root name) data fs)
    (named : Named generation name) : store.readAll generation fs = .ok data := by
  obtain ⟨m, loaded, found⟩ := published.loadManifest_eq named
  have content := published.contentAt_eq named
  have size : (Json.int data.length).pyEq (.int data.length) = true := by
    show decide _ = true
    simp
  have segment : segmentName m = .ok "segment-000000.bin" := by rw [segmentName, subscript_of_get? found.segment]
  have intact : matchesManifest m data = .ok true := by
    rw [matchesManifest, subscript_of_get? found.inputBytes, subscript_of_get? found.sourceSha256]
    refine bind_ok.2 ⟨_, rfl, ?_⟩
    rw [if_pos size]
    exact congrArg Except.ok (decide_eq_true rfl)
  refine bind_ok.2 ⟨m, loaded, ?_⟩
  refine bind_ok.2 ⟨_, segment, ?_⟩
  rw [content]
  refine bind_ok.2 ⟨data, rfl, ?_⟩
  exact bind_ok.2 ⟨true, intact, rfl⟩

theorem readRange_of_published (published : Published intText store.root (child store.root name) data fs)
    (named : Named generation name) (bound : length ≤ MAX_RANGE_BYTES) (inside : start + length ≤ data.length) :
    store.readRange intText generation start length fs = .ok (Bytes.slice data start (start + length)) := by
  obtain ⟨m, loaded, found⟩ := published.loadManifest_eq named
  obtain ⟨vs, blocks, fits⟩ := found.blocks
  have plain : pathName "segment-000000.bin" = ("segment-000000.bin" : PyStr) := by decide
  have fields : rangeFields m start length = .ok (data.length, vs, "segment-000000.bin") := by
    rw [rangeFields, found.inputBytes, blocks, found.segment]
    refine (if_neg ?_).trans rfl
    rintro (negative | other | short)
    · omega
    · exact other plain
    · omega
  refine bind_ok.2 ⟨(), check_eq_ok_iff.2 ?_, ?_⟩
  · simp [bound]
  refine bind_ok.2 ⟨m, loaded, ?_⟩
  refine bind_ok.2 ⟨(), check_eq_ok_iff.2 (isEqual_str_iff.2 found.schema), ?_⟩
  refine bind_ok.2 ⟨_, fields, ?_⟩
  dsimp only
  by_cases none : length = 0
  · rw [if_pos (by omega), none, Nat.add_zero, slice_of_le (Nat.le_refl _)]
    rfl
  · rw [if_neg (by omega)]
    have first : Bytes.slice data start (min (start + length) 0) = [] := slice_of_le (by omega) data
    obtain ⟨last, reached, gathered⟩ := readBlocks_of_fits
      (by rwa [List.drop_zero]) (by omega) inside
    rw [first] at gathered
    rw [published.contentAt_eq named]
    refine bind_ok.2 ⟨data, rfl, ?_⟩
    refine bind_ok.2 ⟨_, gathered, ?_⟩
    refine bind_ok.2 ⟨(), check_eq_ok_iff.2 ?_, rfl⟩
    have size : (Bytes.slice data start (start + length)).length = length := by
      rw [Bytes.slice, List.length_take, List.length_drop]
      omega
    rw [Bool.and_eq_true_iff, decide_eq_true_iff, decide_eq_true_iff]
    exact ⟨reached, size⟩

theorem readRange_refused (published : Published intText store.root (child store.root name) data fs)
    (named : Named generation name) {start length : ℤ}
    (outside : ¬ (0 ≤ start ∧ 0 ≤ length ∧ length ≤ MAX_RANGE_BYTES ∧ start + length ≤ data.length)) :
    ∃ message, store.readRange intText generation start length fs =
      .error (.streamingStoreError "invalid_range" message) := by
  obtain ⟨m, loaded, found⟩ := published.loadManifest_eq named
  obtain ⟨vs, blocks, -⟩ := found.blocks
  unfold StreamingBlockStore.readRange
  by_cases bounded : (decide (0 ≤ start) && decide (0 ≤ length) && decide (length ≤ MAX_RANGE_BYTES)) = true
  · have accepted := bounded
    simp only [Bool.and_eq_true, decide_eq_true_eq] at bounded
    have fields : rangeFields m start length =
        .error (.streamingStoreError "invalid_range" "range is outside the published generation") := by
      rw [rangeFields, found.inputBytes, blocks, found.segment]
      refine if_pos (.inr (.inr ?_))
      by_contra fits
      exact outside ⟨bounded.1.1, bounded.1.2, bounded.2, by omega⟩
    have schema : isEqual (m.get? "schema") (.str SCHEMA) = true := isEqual_str_iff.2 found.schema
    refine ⟨"range is outside the published generation", ?_⟩
    rw [accepted, loaded]
    show (check (isEqual (m.get? "schema") (.str SCHEMA)) _ _ >>= fun _ => rangeFields m start length >>= fun _ => _) = _
    rw [schema, fields]
    rfl
  · refine ⟨"range must be non-negative integers within the bounded limit", ?_⟩
    rw [check, if_neg bounded]
    rfl

end Streaming

end SimplicioFast
