import SimplicioFast.Lib.Dict
import SimplicioFast.Lib.Machine
import SimplicioFast.Lib.Sha256
import SimplicioFast.Lib.Text

/-!
# The base of a PRISM arena

The base is one byte string: a header, and for each file its path, its length, its digest and its content.
`_decode_catalog` reads where the contents stand, and `base_read` cuts a content out and checks its digest.
Reading the base of some files gives these files (`readBase_of_encodeBase`).
-/

namespace SimplicioFast

/-- The exceptions that the arena raises. -/
inductive ArenaRaised
  | arenaError (reasonCode detail : PyStr)
  | hbpError (code : PyStr)
  | unicodeEncodeError
  | structError
  | osError
deriving DecidableEq

namespace Prism

/-- `ArenaError(reason_code, detail)`, unless the condition holds. -/
def check (condition : Bool) (reasonCode detail : PyStr) : Except ArenaRaised Unit :=
  if condition then .ok () else .error (.arenaError reasonCode detail)

/-- The parts of `Path(value)`, for a relative path. -/
def parts (value : PyStr) : List PyStr :=
  (value.splitOn (.scalar '/')).filter fun part => part ≠ [] && part ≠ "."

/-- `Path(value).as_posix()`, for a relative path. -/
def asPosix (value : PyStr) : PyStr :=
  if parts value = [] then "." else List.intercalate [.scalar '/'] (parts value)

def safePath (value : PyStr) : Except ArenaRaised PyStr := do
  check (value ≠ [] && value.head? ≠ some (.scalar '/') && value.head? ≠ some (.scalar '\\') &&
    (".." : PyStr) ∉ parts value && asPosix value = value) "overlay_escape" value
  return value

theorem safePath_eq_ok {value path : PyStr} (h : safePath value = .ok path) : path = value := by
  obtain ⟨_, -, h⟩ := bind_ok.1 h
  exact (Except.ok.inj h).symm

/-! ## Writing -/

def MAGIC : Bytes := PyStr.asciiBytes "PRISMA1\x00"

/-- The path in UTF-8, and the content. -/
def encodeEntry (file : PyStr × Bytes) : Except ArenaRaised (Bytes × Bytes) := do
  let path ← safePath file.1
  match path.encode with
  | none => .error .unicodeEncodeError
  | some encodedPath =>
    if 65535 < encodedPath.length then .error (.arenaError "base_path_too_long" path)
    else .ok (encodedPath, file.2)

def packRecord (record : Bytes × Bytes) : Except ArenaRaised Bytes :=
  if record.2.length < 256 ^ 8 then
    .ok (Bytes.packBE 2 record.1.length ++ (Bytes.packBE 8 record.2.length ++
      (record.1 ++ (Sha256.digest record.2 ++ record.2))))
  else .error .structError

/-- The header of `count` records. -/
def packHeader (count : ℕ) : Except ArenaRaised Bytes :=
  if count < 256 ^ 4 then .ok (MAGIC ++ Bytes.packBE 4 count) else .error .structError

def encodeBase (files : Dict PyStr Bytes) : Except ArenaRaised Bytes := do
  let records ← (files.entries.insertionSort fun f g => f.1 ≤ g.1).mapM encodeEntry
  let header ← packHeader records.length
  let packed ← records.mapM packRecord
  return header ++ packed.flatten

/-! ## Reading -/

/-- An entry of the catalog. -/
structure CatalogEntry where
  offset : ℕ
  length : ℕ
  digest : List Char

def decodePath (b : Bytes) : Except ArenaRaised PyStr :=
  match PyStr.decode b with
  | some path => safePath path
  | none => .error (.arenaError "snapshot_corrupt" "path encoding")

/-- One turn of the loop of `_decode_catalog`: the offset behind the record, and the catalog with it. -/
def decodeRecord (mapping : Bytes) (offset : ℕ) (catalog : Dict PyStr CatalogEntry) :
    Except ArenaRaised (ℕ × Dict PyStr CatalogEntry) := do
  check (offset + 10 ≤ mapping.length) "snapshot_truncated" "record header"
  let pathLength := Bytes.unpackBE (Bytes.slice mapping offset (offset + 2))
  let contentLength := Bytes.unpackBE (Bytes.slice mapping (offset + 2) (offset + 10))
  let endPath := offset + 10 + pathLength
  let endHash := endPath + 32
  let endContent := endHash + contentLength
  check (endContent ≤ mapping.length) "snapshot_truncated" "record body"
  let path ← decodePath (Bytes.slice mapping (offset + 10) endPath)
  check ((catalog.get? path).isNone) "snapshot_corrupt" ("duplicate path " ++ path)
  let expected := Bytes.hex (Bytes.slice mapping endPath endHash)
  check (Sha256.hexdigest (Bytes.slice mapping endHash endContent) = expected) "snapshot_corrupt" path
  return (endContent, catalog.set path ⟨endHash, contentLength, expected⟩)

/-- The loop of `_decode_catalog`. -/
def decodeRecords (mapping : Bytes) :
    ℕ → ℕ → Dict PyStr CatalogEntry → Except ArenaRaised (ℕ × Dict PyStr CatalogEntry)
  | 0, offset, catalog => .ok (offset, catalog)
  | count + 1, offset, catalog => do
    let (offset, catalog) ← decodeRecord mapping offset catalog
    decodeRecords mapping count offset catalog

def decodeCatalog (mapping : Bytes) : Except ArenaRaised (Dict PyStr CatalogEntry) := do
  check (12 ≤ mapping.length) "snapshot_truncated" "header"
  check (Bytes.slice mapping 0 8 = MAGIC) "snapshot_corrupt" "magic"
  let (offset, catalog) ← decodeRecords mapping (Bytes.unpackBE (Bytes.slice mapping 8 12)) 12 .empty
  check (offset = mapping.length) "snapshot_corrupt" "trailing bytes"
  return catalog

/-- The part of `base_read` behind its checks of the arguments. -/
def readBase (mapping : Bytes) (catalog : Dict PyStr CatalogEntry) (path : PyStr) :
    Except ArenaRaised (Option Bytes) :=
  match catalog.get? path with
  | none => .ok none
  | some record =>
    let data := Bytes.slice mapping record.offset (record.offset + record.length)
    if Sha256.hexdigest data = record.digest then .ok (some data)
    else .error (.arenaError "snapshot_corrupt" path)

/-! ## The round trip -/

variable {mapping before after packed : Bytes} {catalog : Dict PyStr CatalogEntry} {path : PyStr}
  {content : Bytes}

/-- The catalog gives the contents of the listed files. -/
def Lists (mapping : Bytes) (catalog : Dict PyStr CatalogEntry) (files : List (PyStr × Bytes)) : Prop :=
  ∀ path, readBase mapping catalog path = .ok (Dict.find files path)

theorem check_eq_ok {condition : Bool} {reasonCode detail : PyStr} (h : condition = true) :
    check condition reasonCode detail = .ok () := if_pos h

theorem check_eq_ok_iff {condition : Bool} {reasonCode detail : PyStr} {u : Unit} :
    check condition reasonCode detail = .ok u ↔ condition = true := by
  unfold check
  split_ifs with holds
  · exact iff_of_true rfl holds
  · exact iff_of_false nofun holds

theorem isNone_of_lists {files : List (PyStr × Bytes)} (h : Lists mapping catalog files)
    (new : path ∉ files.map Prod.fst) : (catalog.get? path).isNone = true := by
  cases found : catalog.get? path with
  | none => rfl
  | some record =>
    have read := h path
    have absent : Dict.find files path = none := by
      cases known : Dict.find files path with
      | none => rfl
      | some b => exact absurd (List.mem_map.2 ⟨_, Dict.mem_of_lookup known, rfl⟩) new
    rw [readBase, found, absent] at read
    dsimp only at read
    split_ifs at read
    cases read

theorem slices_of_packRecord {encodedPath : Bytes} (h : packRecord (encodedPath, content) = .ok packed)
    (short : encodedPath.length ≤ 65535) (whole : mapping = before ++ packed ++ after) :
    Bytes.unpackBE (Bytes.slice mapping before.length (before.length + 2)) = encodedPath.length ∧
      Bytes.unpackBE (Bytes.slice mapping (before.length + 2) (before.length + 10)) = content.length ∧
      Bytes.slice mapping (before.length + 10) (before.length + 10 + encodedPath.length) = encodedPath ∧
      Bytes.slice mapping (before.length + 10 + encodedPath.length)
        (before.length + 10 + encodedPath.length + 32) = Sha256.digest content ∧
      Bytes.slice mapping (before.length + 10 + encodedPath.length + 32)
        (before.length + 10 + encodedPath.length + 32 + content.length) = content ∧
      packed.length = 10 + encodedPath.length + 32 + content.length := by
  unfold packRecord at h
  split_ifs at h with bound
  cases h
  subst whole
  have pathLength := Bytes.length_packBE 2 encodedPath.length
  have contentLength := Bytes.length_packBE 8 content.length
  have digestLength := Sha256.length_digest content
  -- the place of each part is the length of what stands before it
  have cut : ∀ (front part back : Bytes) (i j : ℕ), i = front.length →
      j = front.length + part.length → Bytes.slice (front ++ part ++ back) i j = part := by
    rintro front part back _ _ rfl rfl
    exact Bytes.slice_middle front part back
  refine ⟨?_, ?_, ?_, ?_, ?_, ?_⟩
  · have part := cut before (Bytes.packBE 2 encodedPath.length) (Bytes.packBE 8 content.length ++
      (encodedPath ++ (Sha256.digest content ++ content)) ++ after) before.length (before.length + 2)
      rfl (by rw [pathLength])
    simp only [List.append_assoc] at part ⊢
    rw [part]
    exact Bytes.unpackBE_packBE (by omega)
  · have part := cut (before ++ Bytes.packBE 2 encodedPath.length) (Bytes.packBE 8 content.length)
      (encodedPath ++ (Sha256.digest content ++ content) ++ after) (before.length + 2)
      (before.length + 10) (by simp) (by simp)
    simp only [List.append_assoc] at part ⊢
    rw [part]
    exact Bytes.unpackBE_packBE bound
  · have part := cut (before ++ Bytes.packBE 2 encodedPath.length ++ Bytes.packBE 8 content.length)
      encodedPath ((Sha256.digest content ++ content) ++ after) (before.length + 10)
      (before.length + 10 + encodedPath.length) (by simp) (by simp)
    simp only [List.append_assoc] at part ⊢
    exact part
  · have part := cut (before ++ Bytes.packBE 2 encodedPath.length ++ Bytes.packBE 8 content.length ++
      encodedPath) (Sha256.digest content) (content ++ after) (before.length + 10 + encodedPath.length)
      (before.length + 10 + encodedPath.length + 32) (by simp; omega) (by simp; omega)
    simp only [List.append_assoc] at part ⊢
    exact part
  · have part := cut (before ++ Bytes.packBE 2 encodedPath.length ++ Bytes.packBE 8 content.length ++
      encodedPath ++ Sha256.digest content) content after
      (before.length + 10 + encodedPath.length + 32)
      (before.length + 10 + encodedPath.length + 32 + content.length) (by simp; omega) (by simp; omega)
    simp only [List.append_assoc] at part ⊢
    exact part
  · simp only [List.length_append, pathLength, contentLength, digestLength]
    omega

theorem encodeEntry_eq_ok {record : Bytes × Bytes} (h : encodeEntry (path, content) = .ok record) :
    safePath path = .ok path ∧ path.encode = some record.1 ∧ record.1.length ≤ 65535 ∧
      record.2 = content := by
  obtain ⟨path', safe, h⟩ := bind_ok.1 h
  have same : path' = path := safePath_eq_ok safe
  subst same
  split at h
  · cases h
  · next encodedPath encoded =>
    split_ifs at h with long
    cases h
    exact ⟨safe, encoded, not_lt.1 long, rfl⟩

theorem decodeRecord_packed {files : List (PyStr × Bytes)} {record : Bytes × Bytes}
    (entry : encodeEntry (path, content) = .ok record) (h : packRecord record = .ok packed)
    (whole : mapping = before ++ packed ++ after) (lists : Lists mapping catalog files)
    (new : path ∉ files.map Prod.fst) :
    ∃ catalog', decodeRecord mapping before.length catalog =
      .ok ((before ++ packed).length, catalog') ∧ Lists mapping catalog' (files ++ [(path, content)]) := by
  obtain ⟨safe, encoded, short, same⟩ := encodeEntry_eq_ok entry
  obtain ⟨encodedPath, content'⟩ := record
  dsimp only at encoded short same
  subst same
  obtain ⟨pathLength, contentLength, pathPart, digestPart, contentPart, length⟩ :=
    slices_of_packRecord h short whole
  have total : mapping.length = before.length + packed.length + after.length := by
    rw [whole, List.length_append, List.length_append]
  have decoded : decodePath encodedPath = .ok path := by
    rw [decodePath, PyStr.decode_encode encoded]
    exact safe
  refine ⟨catalog.set path ⟨before.length + 10 + encodedPath.length + 32, content'.length,
    Bytes.hex (Sha256.digest content')⟩, ?_, ?_⟩
  · rw [decodeRecord, check_eq_ok (by rw [decide_eq_true_eq]; omega)]
    simp only [pathLength, contentLength, pathPart, digestPart, contentPart]
    have fits : decide (before.length + 10 + encodedPath.length + 32 + content'.length ≤
        mapping.length) = true := by
      rw [decide_eq_true_eq]
      omega
    rw [check_eq_ok fits, decoded]
    change (check _ _ _ >>= fun _ => _) = _
    rw [check_eq_ok (isNone_of_lists lists new)]
    change (check (decide (Sha256.hexdigest content' = Sha256.hexdigest content')) _ _ >>= fun _ => _) = _
    rw [check_eq_ok (decide_eq_true rfl)]
    change Except.ok _ = _
    rw [List.length_append, length]
    simp only [Nat.add_assoc]
  · intro p
    rw [readBase, Dict.get?_set]
    by_cases same : p = path
    · subst same
      have absent : Dict.find files p = none := by
        cases known : Dict.find files p with
        | none => rfl
        | some b => exact absurd (List.mem_map.2 ⟨_, Dict.mem_of_lookup known, rfl⟩) new
      rw [if_pos rfl, Dict.find_append, absent]
      dsimp only
      rw [contentPart, Dict.find_cons, if_pos rfl]
      exact if_pos rfl
    · rw [if_neg same, Dict.find_append]
      have other : Dict.find [(path, content')] p = none := by
        rw [Dict.find_cons, if_neg same]
        rfl
      rw [other, Option.or_none]
      exact lists p

theorem decodeRecords_packed {files todo : List (PyStr × Bytes)} {records : List (Bytes × Bytes)}
    {blocks : List Bytes} (entries : todo.mapM encodeEntry = .ok records)
    (packs : records.mapM packRecord = .ok blocks) (whole : mapping = before ++ blocks.flatten)
    (lists : Lists mapping catalog files) (nodup : ((files ++ todo).map Prod.fst).Nodup) :
    ∃ catalog', decodeRecords mapping records.length before.length catalog =
      .ok (mapping.length, catalog') ∧ Lists mapping catalog' (files ++ todo) := by
  induction todo generalizing records blocks before catalog files with
  | nil =>
    cases entries
    cases packs
    have same : mapping = before := whole.trans (List.append_nil before)
    refine ⟨catalog, ?_, ?_⟩
    · rw [same]
      rfl
    · rw [List.append_nil]
      exact lists
  | cons file todo ih =>
    obtain ⟨path, content⟩ := file
    rw [List.mapM_cons] at entries
    obtain ⟨record, entry, others⟩ := bind_ok.1 entries
    obtain ⟨records', entries', same⟩ := bind_ok.1 others
    cases same
    rw [List.mapM_cons] at packs
    obtain ⟨packed, pack, otherPacks⟩ := bind_ok.1 packs
    obtain ⟨blocks', packs', same⟩ := bind_ok.1 otherPacks
    cases same
    rw [List.flatten_cons, ← List.append_assoc] at whole
    have new : path ∉ files.map Prod.fst := by
      rw [List.map_append, List.nodup_append] at nodup
      intro mem
      exact nodup.2.2 path mem path List.mem_cons_self rfl
    obtain ⟨catalog₁, first, lists₁⟩ := decodeRecord_packed entry pack whole lists new
    rw [List.append_cons] at nodup ⊢
    obtain ⟨catalog', rest, lists'⟩ := ih entries' packs' whole lists₁ nodup
    refine ⟨catalog', ?_, lists'⟩
    rw [List.length_cons, decodeRecords, first]
    exact rest

theorem readBase_of_encodeBase {files : Dict PyStr Bytes} {blob : Bytes}
    (h : encodeBase files = .ok blob) :
    ∃ catalog, decodeCatalog blob = .ok catalog ∧
      ∀ path, readBase blob catalog path = .ok (files.get? path) := by
  obtain ⟨records, entries, h⟩ := bind_ok.1 h
  obtain ⟨header, packedHeader, h⟩ := bind_ok.1 h
  obtain ⟨blocks, packs, h⟩ := bind_ok.1 h
  have whole : blob = header ++ blocks.flatten := (Except.ok.inj h).symm
  have sorted := files.entries.perm_insertionSort fun f g => f.1 ≤ g.1
  have nodup : ((files.entries.insertionSort fun f g => f.1 ≤ g.1).map Prod.fst).Nodup :=
    (sorted.map Prod.fst).nodup_iff.2 files.nodup
  unfold packHeader at packedHeader
  split_ifs at packedHeader with bound
  cases packedHeader
  have length : (MAGIC ++ Bytes.packBE 4 records.length).length = 12 := by
    simp only [List.length_append, Bytes.length_packBE]
    rfl
  have start : Lists blob .empty [] := fun _ => rfl
  obtain ⟨catalog, decoded, lists⟩ := decodeRecords_packed entries packs whole start nodup
  rw [length] at decoded
  have magic : Bytes.slice blob 0 8 = MAGIC := by
    rw [whole, List.append_assoc]
    exact Bytes.slice_middle [] MAGIC _
  have count : Bytes.unpackBE (Bytes.slice blob 8 12) = records.length := by
    have part := Bytes.slice_middle MAGIC (Bytes.packBE 4 records.length) blocks.flatten
    rw [Bytes.length_packBE, ← whole] at part
    rw [show Bytes.slice blob 8 12 = Bytes.packBE 4 records.length from part]
    exact Bytes.unpackBE_packBE bound
  have long : 12 ≤ blob.length := by
    rw [whole, List.length_append, length]
    omega
  refine ⟨catalog, ?_, fun path => ?_⟩
  · rw [decodeCatalog, check_eq_ok (decide_eq_true long), check_eq_ok (decide_eq_true magic), count,
      decoded]
    change (check (decide (blob.length = blob.length)) _ _ >>= fun _ => Except.ok catalog) = _
    rw [check_eq_ok (decide_eq_true rfl)]
    rfl
  · rw [lists path, List.nil_append]
    exact congrArg Except.ok (Dict.lookup_perm files.nodup sorted.symm path)

end Prism

end SimplicioFast
