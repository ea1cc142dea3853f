import SimplicioFast.Lib.Lists
import SimplicioFast.Mapper.Snapshot
import SimplicioFast.Snapshot.Packed

/-!
# Symbols of mapper payloads

Every symbol of a payload is in the snapshot exactly once when its file is listed once, and no other payload is rejected:
a symbol in a file that is not listed is left out, and one in a file that is listed twice is there twice
(`lossless_iff`).
-/

namespace SimplicioFast

namespace MapperSnapshot

open SnapshotFormat

variable {host : Host} {payload : JsonObject} {options : Options} {r : Compiled} {v : Json} {id : PyStr} {symbol : Symbol}
  {symbols : List Symbol} {e : FileEntry} {items : List Json} {kind : PyStr}

/-! ## Symbols that are read back unchanged -/

/-- The kinds of the table do not change when they are casefolded. -/
def Lowered (casefold : PyStr → PyStr) : Prop := ∀ e ∈ KIND_TO_ID, casefold e.1 = e.1

theorem normalizeKind_of_listed {casefold : PyStr → PyStr} (lowered : Lowered casefold)
    (listed : (Dict.find KIND_TO_ID kind).isSome = true) : normalizeKind casefold kind = kind := by
  have table : ∀ e ∈ KIND_TO_ID, e.1 ≠ [] ∧ e.1.strip = e.1 ∧ Dict.find KIND_TO_ID e.1 = some e.2 ∧
      Dict.find ID_TO_KIND e.2 = some e.1 := by decide
  obtain ⟨n, found⟩ := Option.isSome_iff_exists.1 listed
  have mem := Dict.mem_of_lookup found
  obtain ⟨some_, stripped, there, back⟩ := table _ mem
  have number : kindToId casefold kind = n := by
    unfold kindToId
    rw [if_neg some_]
    dsimp only
    rw [stripped, show casefold kind = kind from lowered _ mem, there]
  rw [normalizeKind, number, back]
  rfl

theorem isSome_kindOf (host : Host) (value : Option Json) : (Dict.find KIND_TO_ID (kindOf host value)).isSome = true := by
  unfold kindOf
  dsimp only
  split
  · rename_i listed
    exact listed
  · decide

theorem readBack_of_symbolOf (lowered : Lowered host.casefold) (made : symbolOf host v = .ok (id, symbol)) :
    readBack host.casefold symbol = symbol := by
  cases v with
  | obj item =>
    obtain ⟨mapperId, -, made⟩ := bind_ok.1 made
    obtain ⟨relative, -, made⟩ := bind_ok.1 made
    obtain ⟨line, -, made⟩ := bind_ok.1 made
    obtain ⟨endLine, -, made⟩ := bind_ok.1 made
    obtain ⟨⟨⟩, -, made⟩ := bind_ok.1 made
    obtain ⟨internal, hashed, made⟩ := bind_ok.1 made
    obtain ⟨rfl, rfl⟩ := Prod.mk.inj (Except.ok.inj made)
    have id : PyStr.ofChars (Bytes.hex (Struct.blob 32 ((internal.chars?.bind Bytes.fromHex).getD []))) = internal := by
      unfold internalId at hashed
      split at hashed
      · rename_i b _
        cases hashed
        rw [(PyStr.chars?_eq_some_iff _ _).2 rfl, Option.bind_some, Sha256.hexdigest, Bytes.fromHex_hex, Option.getD_some,
          Struct.blob_eq_self (Sha256.length_digest b)]
      · cases hashed
    have kind := normalizeKind_of_listed lowered (isSome_kindOf host (Dict.find item "kind"))
    simp only [readBack, id, kind]
  | _ => cases made

/-! ## Files -/

/-- The normalized text under a field of an item. -/
def pathOf (field : PyStr) (v : Json) : Option PyStr :=
  match v.get? field with
  | some (.str t) => some (normalized t)
  | _ => none

/-- The normalized texts under a field of the items of a list. -/
def pathsOf (payload : JsonObject) (list field : PyStr) : List PyStr :=
  match payload.get? list with
  | some (.arr items) => items.filterMap (pathOf field)
  | _ => []

theorem listOf_eq_ok {list : PyStr} (listed : listOf payload list = .ok items) :
    payload.get? list = some (.arr items) := by
  unfold listOf at listed
  split at listed
  · rename_i found
    cases listed
    exact found
  · cases listed

theorem pathsOf_eq {list field : PyStr} (listed : listOf payload list = .ok items) :
    pathsOf payload list field = items.filterMap (pathOf field) := by
  rw [pathsOf, listOf_eq_ok listed]

theorem textOf_eq_ok {item : List (PyStr × Json)} {key message t : PyStr} (read : textOf item key message = .ok t) :
    Dict.find item key = some (.str t) := by
  unfold textOf at read
  split at read
  · rename_i found
    cases read
    exact found
  · cases read

theorem pathOf_of_symbolOf (made : symbolOf host v = .ok (id, symbol)) : pathOf "file" v = some symbol.file := by
  cases v with
  | obj item =>
    obtain ⟨mapperId, -, made⟩ := bind_ok.1 made
    obtain ⟨relative, file, made⟩ := bind_ok.1 made
    obtain ⟨line, -, made⟩ := bind_ok.1 made
    obtain ⟨endLine, -, made⟩ := bind_ok.1 made
    obtain ⟨⟨⟩, -, made⟩ := bind_ok.1 made
    obtain ⟨internal, -, made⟩ := bind_ok.1 made
    obtain ⟨rfl, rfl⟩ := Prod.mk.inj (Except.ok.inj made)
    rw [pathOf, show (Json.obj item).get? "file" = _ from textOf_eq_ok file]
  | _ => cases made

theorem entryOf_eq_ok (made : entryOf host symbols v = .ok e) :
    pathOf "path" v = some e.path ∧ e.symbols = symbols.filter fun s => s.file = e.path := by
  cases v with
  | obj item =>
    obtain ⟨path, text, made⟩ := bind_ok.1 made
    dsimp only at made
    split at made
    · cases made
    · split at made
      · cases made
      · obtain ⟨declared, -, made⟩ := bind_ok.1 made
        obtain ⟨⟨⟩, -, made⟩ := bind_ok.1 made
        obtain rfl := Except.ok.inj made
        refine ⟨?_, rfl⟩
        rw [pathOf, show (Json.obj item).get? "path" = _ from textOf_eq_ok text]
  | _ => cases made

theorem filterMap_of_forall₂ {α : Type} {p : Json → Option PyStr} {f : α → PyStr} {made : List α}
    (each : List.Forall₂ (fun v a => p v = some (f a)) items made) : items.filterMap p = made.map f := by
  induction each with
  | nil => rfl
  | cons first _ ih => rw [List.filterMap_cons_some first, ih, List.map_cons]

theorem compileMapperPayload_eq_ok (lowered : Lowered host.casefold)
    (compiled : compileMapperPayload host payload options = .ok r) :
    r.symbols.map Symbol.file = pathsOf payload "symbols" "file" ∧
      r.entries.map FileEntry.path = pathsOf payload "files" "path" ∧
      (∀ e ∈ r.entries, e.symbols = r.symbols.filter fun s => s.file = e.path) ∧
      r.symbols.map (readBack host.casefold) = r.symbols ∧
      ∃ relations provenance, buildV2 host.casefold r.entries relations provenance = .ok r.snapshot := by
  obtain ⟨⟨⟩, -, compiled⟩ := bind_ok.1 compiled
  obtain ⟨files, fileList, compiled⟩ := bind_ok.1 compiled
  obtain ⟨items, symbolList, compiled⟩ := bind_ok.1 compiled
  obtain ⟨relations, -, compiled⟩ := bind_ok.1 compiled
  obtain ⟨found, foundEach, compiled⟩ := bind_ok.1 compiled
  obtain ⟨entries, entriesEach, compiled⟩ := bind_ok.1 compiled
  obtain ⟨compiledRelations, -, compiled⟩ := bind_ok.1 compiled
  obtain ⟨provenance, -, compiled⟩ := bind_ok.1 compiled
  obtain ⟨snapshot, built, compiled⟩ := bind_ok.1 compiled
  obtain rfl := Except.ok.inj compiled
  refine ⟨?_, ?_, fun e mem => ?_, ?_, compiledRelations.flatten, some provenance, built⟩
  · rw [pathsOf_eq symbolList, List.map_map]
    exact (filterMap_of_forall₂ ((Except.mapM_eq_ok_iff.1 foundEach).imp fun v s made => pathOf_of_symbolOf made)).symm
  · rw [pathsOf_eq fileList]
    exact (filterMap_of_forall₂ ((Except.mapM_eq_ok_iff.1 entriesEach).imp fun v e made => (entryOf_eq_ok made).1)).symm
  · obtain ⟨v, -, made⟩ := (Except.mem_of_mapM_eq_ok entriesEach).1 mem
    exact (entryOf_eq_ok made).2
  · rw [List.map_map]
    refine List.map_congr_left fun s mem => ?_
    obtain ⟨v, -, made⟩ := (Except.mem_of_mapM_eq_ok foundEach).1 mem
    exact readBack_of_symbolOf lowered made

/-! ## Symbols of the snapshot -/

/-- The snapshot of a payload that compiles has the symbols of the listed files, and these are the symbols of the payload,
each of them once, exactly when the file of each symbol is listed once. -/
theorem lossless_iff (lowered : Lowered host.casefold) (compiled : compileMapperPayload host payload options = .ok r) :
    ∃ s found, openSnapshot r.snapshot = .ok s ∧ SnapshotFormat.symbols s = .ok found ∧
      (found.Perm r.symbols ↔
        ∀ file ∈ pathsOf payload "symbols" "file", (pathsOf payload "files" "path").count file = 1) := by
  obtain ⟨symbolFiles, listedFiles, groups, unchanged, relations, provenance, built⟩ :=
    compileMapperPayload_eq_ok lowered compiled
  obtain ⟨s, opened, -, read, -⟩ := readBack_of_buildV2 built
  refine ⟨s, _, opened, read, ?_⟩
  have written : r.entries.flatMap FileEntry.symbols =
      (r.entries.map FileEntry.path).flatMap fun k => r.symbols.filter fun s => s.file = k := by
    rw [List.flatMap_map]
    exact List.flatMap_congr groups
  have sorted : (sortedSymbols host.casefold r.entries).Perm (r.entries.flatMap FileEntry.symbols) :=
    List.perm_insertionSort _ _
  have same : ((r.entries.flatMap FileEntry.symbols).map (readBack host.casefold)) = r.entries.flatMap FileEntry.symbols := by
    refine (List.map_congr_left fun s mem => ?_).trans (List.map_id' _)
    obtain ⟨e, mem, inside⟩ := List.mem_flatMap.1 mem
    rw [groups e mem] at inside
    exact List.map_inj_left.1 (unchanged.trans (List.map_id' _).symm) s (List.mem_of_mem_filter inside)
  have perm := sorted.map (readBack host.casefold)
  rw [same, written] at perm
  rw [← symbolFiles, ← listedFiles, List.forall_mem_map]
  exact (perm.congr_left _).trans (flatMap_filter_perm_iff Symbol.file r.symbols _)

/-! ## A symbol in a file that is not listed -/

def sampleHost : Host where
  conversions := sampleConversions
  float v := match v with
    | .float d => .ok d
    | _ => .error .typeError
  casefold := PyStr.asciiCasefold
  source _ := none
  rootName := "r"

/-- A payload without files, and with a symbol in the file `a`. -/
def samplePayload : JsonObject where
  fields := [("schema", .str "simplicio.fast.parser-adapter/v1"), ("mode", .str "integrated"), ("files", .arr []),
    ("symbols", .arr [.obj [("id", .str "f"), ("file", .str "a"), ("line", .int 1)]]), ("relations", .arr [])]
  distinct := by
    refine ⟨?_, trivial, trivial, trivial, ⟨⟨?_, trivial, trivial, trivial, trivial⟩, trivial⟩, trivial, trivial⟩
    · show (["schema", "mode", "files", "symbols", "relations"] : List PyStr).Nodup
      decide
    · show (["id", "file", "line"] : List PyStr).Nodup
      decide

def sampleOptions : Options := ⟨"g", List.replicate 64 (.scalar '0'), some ⟨[("capability_coverage", .obj [])], by
  exact ⟨List.nodup_singleton _, ⟨List.nodup_nil, trivial⟩, trivial⟩⟩⟩

theorem lowered_sampleHost : Lowered sampleHost.casefold := by
  unfold Lowered
  decide

theorem compiled_sample : ∃ r, compileMapperPayload sampleHost samplePayload sampleOptions = .ok r ∧
    (r.symbols.length, r.entries.flatMap FileEntry.symbols) = (1, []) :=
  Except.exists_of_map_toOption (by
    unfold compileMapperPayload
    simp only [buildV2_eq_draft]
    decide +kernel)

/-- The symbol is not in the snapshot of that payload, whose files do not hold its file. -/
theorem lossless_iff_sample : ∃ r, compileMapperPayload sampleHost samplePayload sampleOptions = .ok r ∧
    ∃ s found, openSnapshot r.snapshot = .ok s ∧ SnapshotFormat.symbols s = .ok found ∧ ¬ found.Perm r.symbols := by
  obtain ⟨r, compiled, -⟩ := compiled_sample
  obtain ⟨s, found, opened, read, perm⟩ := lossless_iff lowered_sampleHost compiled
  refine ⟨r, compiled, s, found, opened, read, fun same => ?_⟩
  have listed := perm.1 same
  revert listed
  decide

/-- A symbol in a file that is not listed is left out. -/
theorem not_lossless : ¬ ∀ payload r, compileMapperPayload sampleHost payload sampleOptions = .ok r →
    ∃ s found, openSnapshot r.snapshot = .ok s ∧ SnapshotFormat.symbols s = .ok found ∧ found.Perm r.symbols := by
  intro lossless
  obtain ⟨r, compiled, sizes⟩ := compiled_sample
  obtain ⟨one, none⟩ := Prod.mk.inj sizes
  obtain ⟨s, found, opened, read, perm⟩ := lossless _ r compiled
  obtain ⟨-, -, -, -, relations, provenance, built⟩ := compileMapperPayload_eq_ok lowered_sampleHost compiled
  obtain ⟨s', opened', -, read', -⟩ := readBack_of_buildV2 built
  cases opened.symm.trans opened'
  cases read.symm.trans read'
  have length := perm.length_eq
  rw [List.length_map, sortedSymbols, none, one] at length
  cases length

end MapperSnapshot

end SimplicioFast
