import SimplicioFast.Lib.JsonWide
import SimplicioFast.Snapshot.Closure
import SimplicioFast.Snapshot.Packed

/-!
# Reading an open snapshot

Opening a snapshot checks where the texts of its records are, and of a relation the kind and the confidence.  It does
not decode the texts, and it does not look at the other fields of the relations.  So the methods of an open snapshot
return exactly when the texts can be decoded and the relations have the fields that the methods use (`Readable`).

`str.casefold` is a parameter.
-/

namespace SimplicioFast

namespace SnapshotFormat

variable (casefold : PyStr → PyStr) (s : OpenSnapshot)

/-! ## The invalidation closure of an open snapshot -/

/-- A text, for a value whose `casefold` is called. -/
def textOf : Json → Except SnapshotRaised PyStr
  | .str t => .ok t
  | _ => .error .typeError

def givenText (v : Json) : Except SnapshotRaised PyStr := if v.truthy then textOf v else .ok []

/-- The origin ids of a relation that are ids of symbols. -/
def originsOf (symbols : List Symbol) (r : RelationValue) : Except SnapshotRaised (List PyStr) :=
  let known (id : PyStr) : Bool := symbols.any fun symbol => symbol.symbolId = id
  if r.originId.truthy then
    match r.originId with
    | .str id => .ok ([id].filter known)
    | .arr _ => .error .typeError
    | .obj _ => .error .typeError
    | _ => .ok []
  else do
    let origin ← textOf r.origin
    return (Snapshot.nameToIds casefold ⟨[], symbols, []⟩ (casefold origin)).filter known

/-- The relation, as far as the closure uses it; it is not used when no symbol is an origin of it. -/
def usedRelation (symbols : List Symbol) (r : RelationValue) : Except SnapshotRaised (Option Relation) := do
  let origins ← originsOf casefold symbols r
  if origins = [] then return none
  else
    let destination ← textOf r.destination
    let destinationId ← givenText r.destinationId
    let text (v : Json) : PyStr := (textOf v).toOption.getD []
    return some {
      origin := text r.origin
      destination := destination
      kind := text r.kind
      confidence := Decimal.make false 0 0
      originId := text r.originId
      destinationId := destinationId }

def invalidationClosure (changedPaths : List PyStr) (maxSymbols maxFiles : ℕ) :
    Except SnapshotRaised InvalidationClosure := do
  require (1 ≤ maxSymbols && 1 ≤ maxFiles) (.valueError "max_symbols and max_files must be positive")
  let symbols ← symbols s
  let relations ← relations s
  let used ← relations.mapM (usedRelation casefold symbols)
  match Snapshot.invalidationClosure casefold ⟨[], symbols, used.filterMap id⟩ changedPaths maxSymbols maxFiles with
  | some closure => return closure
  | none => .error (.valueError "max_symbols and max_files must be positive")

/-- All reads of the snapshot return. -/
structure Reads : Prop where
  files : ∃ found, files s = .ok found
  symbols : ∃ found, symbols s = .ok found
  search : ∀ query byPrefix path kind, ∃ found, search casefold s query byPrefix path kind = .ok found
  findExact : ∀ query, ∃ found, findExact casefold s query = .ok found
  relations : ∃ found, relations s = .ok found
  closure : ∀ changedPaths maxSymbols maxFiles, 1 ≤ maxSymbols → 1 ≤ maxFiles →
    ∃ found, invalidationClosure casefold s changedPaths maxSymbols maxFiles = .ok found

/-! ## Readable snapshots -/

/-- The bytes of the text with the given number in a record. -/
def textBytes (row : List ℕ) (k : ℕ) : Bytes :=
  Bytes.slice s.map (s.sections.strings.1 + row.getD (2 * k) 0)
    (s.sections.strings.1 + row.getD (2 * k) 0 + row.getD (2 * k + 1) 0)

def recordId (index : ℕ) : PyStr :=
  PyStr.ofChars (Bytes.hex (Bytes.slice (record s.map s.sections.symbols symbolSize index) 40 72))

/-- The field of a relation, or the default of the fields that have one. -/
def fieldOf (v : Json) (key : PyStr) : Json := (v.get? key).getD (.str [])

def IsText (v : Json) : Prop := ∃ t, v = .str t

def IsHashable : Json → Prop
  | .arr _ => False
  | .obj _ => False
  | _ => True

/-- A symbol of the snapshot is an origin of the relation: by its id if the relation has one, else by its name. -/
def HasOrigin (v : Json) : Prop :=
  ∃ index < s.symbolCount,
    if (fieldOf v "origin_id").truthy then fieldOf v "origin_id" = .str (recordId s index)
    else ∃ origin name qualified, fieldOf v "origin" = .str origin ∧
      PyStr.decode (textBytes s (symbolRow s index) 0) = some name ∧
      PyStr.decode (textBytes s (symbolRow s index) 1) = some qualified ∧
      (casefold name = casefold origin ∨ casefold qualified = casefold origin)

/-- The fields of the relation are those of a `Relation`, and those that the closure uses are texts. -/
structure ReadableRelation (v : Json) : Prop where
  known : ∀ fields, v = .obj fields → ∀ f ∈ fields, f.1 ∈ relationFields
  complete : ∀ key ∈ (["origin", "destination"] : List PyStr), (v.get? key).isSome
  originId : (fieldOf v "origin_id").truthy → IsHashable (fieldOf v "origin_id")
  origin : (fieldOf v "origin_id").truthy = false → IsText (fieldOf v "origin")
  destination : HasOrigin casefold s v → IsText (fieldOf v "destination")
  destinationId : HasOrigin casefold s v → (fieldOf v "destination_id").truthy → IsText (fieldOf v "destination_id")

/-- The texts of the records are UTF-8, and the relations are readable. -/
structure Readable : Prop where
  files : ∀ index < s.fileCount, (PyStr.decode (textBytes s (fileRow s index) 0)).isSome
  symbols : ∀ index < s.symbolCount, ∀ k < 3, (PyStr.decode (textBytes s (symbolRow s index) k)).isSome
  relations : ∀ values, loadsBytes (regionBytes s.map s.sections.relations) = .ok (.arr values) →
    ∀ v ∈ values, ReadableRelation casefold s v

variable {casefold s}

/-! ## Texts -/

theorem text_eq_ok_iff {row : List ℕ} {k : ℕ} {t : PyStr} (inside : TextInside s row k) :
    text s (row.getD (2 * k) 0) (row.getD (2 * k + 1) 0) = .ok t ↔ PyStr.decode (textBytes s row k) = some t := by
  unfold text
  rw [bind_ok]
  constructor
  · rintro ⟨⟨⟩, -, read⟩
    split at read
    · cases read
    · cases read
      assumption
  · intro decoded
    refine ⟨(), validateText_eq_ok_iff.2 inside, ?_⟩
    rw [textBytes] at decoded
    rw [decoded]

theorem exists_text_iff {row : List ℕ} {k : ℕ} (inside : TextInside s row k) :
    (∃ t, text s (row.getD (2 * k) 0) (row.getD (2 * k + 1) 0) = .ok t) ↔ (PyStr.decode (textBytes s row k)).isSome := by
  rw [Option.isSome_iff_exists]
  exact exists_congr fun t => text_eq_ok_iff inside

theorem exists_fileAt_iff {index : ℕ} (inside : TextInside s (fileRow s index) 0) :
    (∃ f, fileAt s index = .ok f) ↔ (PyStr.decode (textBytes s (fileRow s index) 0)).isSome := by
  rw [← exists_text_iff inside]
  constructor
  · rintro ⟨f, read⟩
    obtain ⟨path, read, -⟩ := bind_ok.1 read
    exact ⟨path, read⟩
  · rintro ⟨path, read⟩
    exact ⟨_, bind_ok.2 ⟨path, read, rfl⟩⟩

theorem exists_files_iff (checked : Checked s) :
    (∃ found, files s = .ok found) ↔
      ∀ index < s.fileCount, (PyStr.decode (textBytes s (fileRow s index) 0)).isSome := by
  unfold files
  rw [Except.exists_mapM_eq_ok_iff]
  constructor
  · intro all index small
    exact (exists_fileAt_iff (checked.files index small)).1 (all index (List.mem_range.2 small))
  · intro all index mem
    have small := List.mem_range.1 mem
    exact (exists_fileAt_iff (checked.files index small)).2 (all index small)

theorem length_files {found : List (PyStr × Bytes)} (read : files s = .ok found) : found.length = s.fileCount := by
  rw [← (Except.mapM_eq_ok_iff.1 read).length_eq, List.length_range]

theorem symbolAt_eq_ok {paths : List PyStr} {index : ℕ} {symbol : Symbol} (checked : CheckedSymbol s (symbolRow s index))
    (read : symbolAt s paths index = .ok symbol) :
    PyStr.decode (textBytes s (symbolRow s index) 0) = some symbol.name ∧
      PyStr.decode (textBytes s (symbolRow s index) 1) = some symbol.qualifiedName ∧
      (PyStr.decode (textBytes s (symbolRow s index) 2)).isSome ∧ symbol.symbolId = recordId s index := by
  obtain ⟨name, readName, read⟩ := bind_ok.1 read
  obtain ⟨qualified, readQualified, read⟩ := bind_ok.1 read
  obtain ⟨signature, readSignature, read⟩ := bind_ok.1 read
  obtain ⟨kind, -, read⟩ := bind_ok.1 read
  obtain ⟨file, -, read⟩ := bind_ok.1 read
  cases read
  refine ⟨(text_eq_ok_iff (checked.texts 0 (by decide))).1 readName,
    (text_eq_ok_iff (checked.texts 1 (by decide))).1 readQualified, ?_, rfl⟩
  exact (exists_text_iff (checked.texts 2 (by decide))).1 ⟨signature, readSignature⟩

theorem exists_symbolAt {paths : List PyStr} {index : ℕ} (checked : CheckedSymbol s (symbolRow s index))
    (known : paths.length = s.fileCount)
    (decoded : ∀ k < 3, (PyStr.decode (textBytes s (symbolRow s index) k)).isSome) :
    ∃ symbol, symbolAt s paths index = .ok symbol := by
  obtain ⟨name, readName⟩ := (exists_text_iff (checked.texts 0 (by decide))).2 (decoded 0 (by decide))
  obtain ⟨qualified, readQualified⟩ := (exists_text_iff (checked.texts 1 (by decide))).2 (decoded 1 (by decide))
  obtain ⟨signature, readSignature⟩ := (exists_text_iff (checked.texts 2 (by decide))).2 (decoded 2 (by decide))
  obtain ⟨kind, hasKind⟩ := Option.isSome_iff_exists.1 checked.kind
  have readKind : kindOfId ((symbolRow s index).getD 9 0) = .ok kind := by rw [kindOfId, hasKind]
  have bound : (symbolRow s index).getD 6 0 < paths.length := known ▸ checked.file
  have readFile : item paths ((symbolRow s index).getD 6 0) = .ok paths[(symbolRow s index).getD 6 0] := by
    rw [item, List.getElem?_eq_getElem bound]
  exact ⟨_, bind_ok.2 ⟨name, readName, bind_ok.2 ⟨qualified, readQualified,
    bind_ok.2 ⟨signature, readSignature, bind_ok.2 ⟨kind, readKind,
      bind_ok.2 ⟨_, readFile, rfl⟩⟩⟩⟩⟩⟩

theorem exists_symbols_iff (checked : Checked s) :
    (∃ found, symbols s = .ok found) ↔ (∃ found, files s = .ok found) ∧
      ∀ index < s.symbolCount, ∀ k < 3, (PyStr.decode (textBytes s (symbolRow s index) k)).isSome := by
  constructor
  · rintro ⟨found, read⟩
    obtain ⟨paths, opened, read⟩ := bind_ok.1 read
    refine ⟨⟨paths, opened⟩, fun index small k => ?_⟩
    obtain ⟨symbol, read⟩ := Except.exists_mapM_eq_ok_iff.1 ⟨found, read⟩ index (List.mem_range.2 small)
    obtain ⟨name, qualified, signature, -⟩ := symbolAt_eq_ok (checked.symbols index small) read
    intro range
    match k, range with
    | 0, _ => exact Option.isSome_of_eq_some name
    | 1, _ => exact Option.isSome_of_eq_some qualified
    | 2, _ => exact signature
  · rintro ⟨⟨paths, opened⟩, decoded⟩
    have known : (paths.map Prod.fst).length = s.fileCount := by rw [List.length_map, length_files opened]
    obtain ⟨found, read⟩ := Except.exists_mapM_eq_ok_iff.2 fun index mem =>
      exists_symbolAt (checked.symbols index (List.mem_range.1 mem)) known (decoded index (List.mem_range.1 mem))
    exact ⟨found, bind_ok.2 ⟨paths, opened, read⟩⟩

/-! ## Indexes -/

def Positions (n : ℕ) (positions : List ℕ) : Prop := ∀ i ∈ positions, i < n

theorem positionOf_of_isPosition {n : ℕ} {v : Json} (h : isPosition n v = true) :
    ∃ i, positionOf v = .ok i ∧ i < n := by
  cases v with
  | int k =>
    simp only [isPosition, Bool.and_eq_true, decide_eq_true_eq] at h
    exact ⟨k.toNat, if_pos h.1, by omega⟩
  | bool b => exact ⟨b.toNat, rfl, of_decide_eq_true h⟩
  | _ => cases h

theorem positionsOf_of_validatePositions {n : ℕ} {v : Json} {u : Unit} (h : validatePositions n v = .ok u) :
    ∃ positions, positionsOf v = .ok positions ∧ Positions n positions := by
  cases v with
  | arr values =>
    have each := List.all_eq_true.1 (require_eq_ok_iff.1 h)
    obtain ⟨positions, read⟩ := Except.exists_mapM_eq_ok_iff.2 fun v mem =>
      (positionOf_of_isPosition (each v mem)).imp fun i h => h.1
    refine ⟨positions, read, fun i mem => ?_⟩
    obtain ⟨v, here, same⟩ := (Except.mem_of_mapM_eq_ok read).1 mem
    obtain ⟨i', same', small⟩ := positionOf_of_isPosition (each v here)
    cases same.symm.trans same'
    exact small
  | _ => cases h

/-- The entries of an index are lists of positions. -/
def IsIndex (n : ℕ) (index : Json) : Prop :=
  ∃ fields, index = .obj fields ∧ ∀ f ∈ fields, ∃ positions, positionsOf f.2 = .ok positions ∧ Positions n positions

theorem isIndex_of_validateIndex {n : ℕ} {v : Option Json} {u : Unit} (h : validateIndex n v = .ok u) :
    ∃ index, v = some index ∧ IsIndex n index := by
  match v, h with
  | some (.obj fields), h =>
    have each := Except.forM_eq_ok_iff.1 h
    exact ⟨_, rfl, fields, rfl, fun f mem => positionsOf_of_validatePositions (each f.2 (List.mem_map_of_mem mem))⟩

section Index

variable {n : ℕ} {index data : Json} {positions : List ℕ}

theorem exists_hits (valid : IsIndex n index) (test : PyStr → Bool) :
    ∃ found, hits index test = .ok found ∧ Positions n found := by
  obtain ⟨fields, rfl, each⟩ := valid
  obtain ⟨lists, read, mem⟩ := exists_mapM_ok (g := fun f : PyStr × Json => positionsOf f.2)
    (l := fields.filter fun f => test f.1) fun f mem => (each f (List.mem_of_mem_filter mem)).imp fun l h => h.1
  refine ⟨lists.flatten, bind_ok.2 ⟨fields, rfl, bind_ok.2 ⟨lists, read, rfl⟩⟩, ?_⟩
  intro i here
  obtain ⟨f, entry, l, same, here⟩ := (mem i).1 here
  obtain ⟨l', same', small⟩ := each f (List.mem_of_mem_filter entry)
  cases same.symm.trans same'
  exact small i here

theorem exists_positionsAt (valid : IsIndex n index) (key : PyStr) :
    ∃ found, positionsAt index key = .ok found ∧ Positions n found := by
  obtain ⟨fields, rfl, each⟩ := valid
  cases entry : Dict.find fields key with
  | none =>
    refine ⟨[], bind_ok.2 ⟨fields, rfl, ?_⟩, fun i mem => (List.not_mem_nil mem).elim⟩
    rw [entry]
    rfl
  | some values =>
    obtain ⟨l, read, small⟩ := each _ (Dict.mem_of_lookup entry)
    refine ⟨l, bind_ok.2 ⟨fields, rfl, ?_⟩, small⟩
    rw [entry]
    exact read

/-- The indexes that a snapshot must have. -/
def HasIndexes (n : ℕ) (data : Json) : Prop := ∀ key ∈ indexNames, ∃ index, data.get? key = some index ∧ IsIndex n index

theorem exists_subscript (valid : HasIndexes n data) {key : PyStr} (known : key ∈ indexNames) :
    ∃ index, subscript data key = .ok index ∧ IsIndex n index := by
  obtain ⟨index, found, valid⟩ := valid key known
  exact ⟨index, by rw [subscript, found], valid⟩

theorem exists_candidates (valid : HasIndexes n data) (needle : PyStr) (byPrefix : Bool) :
    ∃ found, candidates data needle byPrefix = .ok found ∧ Positions n found := by
  obtain ⟨names, hasNames, validNames⟩ := exists_subscript valid (show ("names" : PyStr) ∈ indexNames by decide)
  cases byPrefix with
  | true =>
    obtain ⟨found, read, small⟩ := exists_hits validNames needle.isPrefixOf
    exact ⟨found, bind_ok.2 ⟨names, hasNames, read⟩, small⟩
  | false =>
    obtain ⟨exact_, hasExact, validExact⟩ := exists_subscript valid (show ("exact" : PyStr) ∈ indexNames by decide)
    obtain ⟨inNames, readNames, smallNames⟩ := exists_hits validNames needle.contains
    obtain ⟨inExact, readExact, smallExact⟩ := exists_hits validExact needle.contains
    refine ⟨inNames ++ inExact, bind_ok.2 ⟨names, hasNames, bind_ok.2 ⟨inNames, readNames,
      bind_ok.2 ⟨exact_, hasExact, bind_ok.2 ⟨inExact, readExact, rfl⟩⟩⟩⟩, ?_⟩
    intro i mem
    rcases List.mem_append.1 mem with mem | mem
    · exact smallNames i mem
    · exact smallExact i mem

theorem positions_sortedPositions (small : Positions n positions) : Positions n (sortedPositions positions) :=
  fun i mem => small i (mem_sortedPositions.1 mem)

theorem exists_narrow (valid : HasIndexes n data) {name : PyStr} (known : name ∈ indexNames) (key : Option PyStr)
    (small : Positions n positions) : ∃ found, narrow data name key positions = .ok found ∧ Positions n found := by
  cases key with
  | none => exact ⟨positions, rfl, small⟩
  | some key =>
    obtain ⟨index, has, valid⟩ := exists_subscript valid known
    obtain ⟨allowed, read, -⟩ := exists_positionsAt valid key
    refine ⟨_, bind_ok.2 ⟨index, has, bind_ok.2 ⟨allowed, read, rfl⟩⟩, ?_⟩
    exact positions_sortedPositions fun i mem => small i (List.mem_of_mem_filter mem)

end Index

theorem hasIndexes (checked : Checked s) : ∃ data, indexData s = .ok data ∧ HasIndexes s.symbolCount data := by
  obtain ⟨data, loaded, each⟩ := checked.indexes
  exact ⟨data, loaded, fun key known => isIndex_of_validateIndex (each key known)⟩

theorem exists_symbolsAt {found : List (PyStr × Bytes)} (opened : files s = .ok found)
    (read : ∃ all, symbols s = .ok all) {positions : List ℕ} (small : Positions s.symbolCount positions) :
    ∃ l, positions.mapM (symbolAt s (found.map Prod.fst)) = .ok l := by
  obtain ⟨all, read⟩ := read
  obtain ⟨found', opened', read⟩ := bind_ok.1 read
  cases opened.symm.trans opened'
  have each := Except.exists_mapM_eq_ok_iff.1 ⟨all, read⟩
  exact Except.exists_mapM_eq_ok_iff.2 fun i mem => each i (List.mem_range.2 (small i mem))

theorem exists_search (checked : Checked s) (read : ∃ all, symbols s = .ok all) (query : PyStr) (byPrefix : Bool)
    (path kind : Option PyStr) : ∃ found, search casefold s query byPrefix path kind = .ok found := by
  obtain ⟨data, loaded, valid⟩ := hasIndexes checked
  obtain ⟨l, ran, small⟩ := exists_candidates valid (casefold query) byPrefix
  obtain ⟨l', ran', small'⟩ := exists_narrow valid (show ("paths" : PyStr) ∈ indexNames by decide) path small
  obtain ⟨l'', ran'', small''⟩ := exists_narrow valid (show ("kinds" : PyStr) ∈ indexNames by decide) kind small'
  obtain ⟨found, opened, -⟩ := bind_ok.1 read.choose_spec
  obtain ⟨symbols, each⟩ := exists_symbolsAt opened read (positions_sortedPositions small'')
  exact ⟨_, bind_ok.2 ⟨data, loaded, bind_ok.2 ⟨l, ran, bind_ok.2 ⟨l', ran',
    bind_ok.2 ⟨l'', ran'', bind_ok.2 ⟨found, opened,
      bind_ok.2 ⟨symbols, each, rfl⟩⟩⟩⟩⟩⟩⟩

theorem exists_findExact (checked : Checked s) (read : ∃ all, symbols s = .ok all) (query : PyStr) :
    ∃ found, findExact casefold s query = .ok found := by
  obtain ⟨data, loaded, valid⟩ := hasIndexes checked
  obtain ⟨index, has, valid⟩ := exists_subscript valid (show ("exact" : PyStr) ∈ indexNames by decide)
  obtain ⟨positions, ran, small⟩ := exists_positionsAt valid (casefold query)
  obtain ⟨found, opened, -⟩ := bind_ok.1 read.choose_spec
  obtain ⟨symbols, each⟩ := exists_symbolsAt opened read small
  exact ⟨symbols, bind_ok.2 ⟨data, loaded, bind_ok.2 ⟨index, has,
    bind_ok.2 ⟨found, opened, bind_ok.2 ⟨positions, ran, each⟩⟩⟩⟩⟩

/-! ## Relations -/

theorem argument_eq_ok_iff {v : Option Json} {w : Json} : argument v = .ok w ↔ v = some w := by
  cases v with
  | none => exact iff_of_false (fun h => by cases h) fun h => by cases h
  | some v => exact ⟨fun h => congrArg some (Except.ok.inj h), fun h => congrArg Except.ok (Option.some.inj h)⟩

theorem relationOf_eq_ok {v : Json} {r : RelationValue} (read : relationOf v = .ok r) :
    (∀ fields, v = .obj fields → ∀ f ∈ fields, f.1 ∈ relationFields) ∧
      (∀ key ∈ (["origin", "destination"] : List PyStr), (v.get? key).isSome) ∧ r.origin = fieldOf v "origin" ∧
      r.destination = fieldOf v "destination" ∧ r.originId = fieldOf v "origin_id" ∧
      r.destinationId = fieldOf v "destination_id" := by
  cases v with
  | obj fields =>
    obtain ⟨⟨⟩, known, read⟩ := bind_ok.1 read
    obtain ⟨origin, hasOrigin, read⟩ := bind_ok.1 read
    obtain ⟨destination, hasDestination, read⟩ := bind_ok.1 read
    obtain ⟨kind, -, read⟩ := bind_ok.1 read
    obtain ⟨confidence, -, read⟩ := bind_ok.1 read
    cases read
    have hasOrigin : (Json.obj fields).get? "origin" = some origin := argument_eq_ok_iff.1 hasOrigin
    have hasDestination : (Json.obj fields).get? "destination" = some destination :=
      argument_eq_ok_iff.1 hasDestination
    refine ⟨?_, ?_, ?_, ?_, rfl, rfl⟩
    · rintro _ ⟨⟩ f mem
      exact of_decide_eq_true (List.all_eq_true.1 (require_eq_ok_iff.1 known) f mem)
    · intro key mem
      rcases List.mem_pair.1 mem with rfl | rfl
      · exact Option.isSome_of_eq_some hasOrigin
      · exact Option.isSome_of_eq_some hasDestination
    · rw [fieldOf, hasOrigin, Option.getD_some]
    · rw [fieldOf, hasDestination, Option.getD_some]
  | _ => cases read

theorem fields_of_validateRelation {v : Json} {u : Unit} (checked : validateRelation v = .ok u) :
    ∃ fields, v = .obj fields ∧ (∃ kind, Dict.find fields "kind" = some kind) ∧
      ∃ confidence, Dict.find fields "confidence" = some confidence := by
  cases v with
  | obj fields =>
    obtain ⟨⟨⟩, kind, confidence⟩ := bind_ok.1 checked
    refine ⟨fields, rfl, ?_, ?_⟩
    · cases found : Dict.find fields "kind" with
      | none =>
        rw [found] at kind
        cases kind
      | some k => exact ⟨k, rfl⟩
    · cases found : Dict.find fields "confidence" with
      | none =>
        rw [found] at confidence
        cases confidence
      | some c => exact ⟨c, rfl⟩
  | _ => cases checked

/-- A relation is read when it has the fields that have no default and only those of a `Relation`. -/
theorem exists_relationOf {v : Json} {u : Unit} (checked : validateRelation v = .ok u)
    (known : ∀ fields, v = .obj fields → ∀ f ∈ fields, f.1 ∈ relationFields)
    (complete : ∀ key ∈ (["origin", "destination"] : List PyStr), (v.get? key).isSome) :
    ∃ r, relationOf v = .ok r := by
  obtain ⟨fields, rfl, ⟨kind, hasKind⟩, confidence, hasConfidence⟩ := fields_of_validateRelation checked
  obtain ⟨origin, hasOrigin⟩ := Option.isSome_iff_exists.1 (complete "origin" (by simp))
  obtain ⟨destination, hasDestination⟩ := Option.isSome_iff_exists.1 (complete "destination" (by simp))
  have keys : (fields.all fun f => f.1 ∈ relationFields) = true :=
    List.all_eq_true.2 fun f mem => decide_eq_true (known fields rfl f mem)
  exact ⟨_, bind_ok.2 ⟨(), require_eq_ok_iff.2 keys,
    bind_ok.2 ⟨origin, argument_eq_ok_iff.2 hasOrigin,
      bind_ok.2 ⟨destination, argument_eq_ok_iff.2 hasDestination,
        bind_ok.2 ⟨kind, argument_eq_ok_iff.2 hasKind,
          bind_ok.2 ⟨confidence, argument_eq_ok_iff.2 hasConfidence, rfl⟩⟩⟩⟩⟩⟩

theorem textOf_eq_ok_iff {v : Json} {t : PyStr} : textOf v = .ok t ↔ v = .str t := by
  cases v with
  | str t' => exact ⟨fun h => congrArg Json.str (Except.ok.inj h), fun h => congrArg Except.ok (Json.str.inj h)⟩
  | _ => exact iff_of_false (fun h => by cases h) fun h => by cases h

theorem exists_textOf_iff {v : Json} : (∃ t, textOf v = .ok t) ↔ IsText v := exists_congr fun _ => textOf_eq_ok_iff

section Used

variable {all : List Symbol} {r : RelationValue}

/-- A symbol that is an origin of the relation is among the symbols. -/
def OriginAmong (casefold : PyStr → PyStr) (all : List Symbol) (r : RelationValue) : Prop :=
  ∃ symbol ∈ all, if r.originId.truthy then r.originId = .str symbol.symbolId
    else ∃ origin, r.origin = .str origin ∧
      (casefold symbol.name = casefold origin ∨ casefold symbol.qualifiedName = casefold origin)

theorem exists_originsOf_iff :
    (∃ origins, originsOf casefold all r = .ok origins) ↔
      (r.originId.truthy → IsHashable r.originId) ∧ (r.originId.truthy = false → IsText r.origin) := by
  obtain ⟨origin, destination, kind, confidence, originId, destinationId⟩ := r
  unfold originsOf
  cases given : originId.truthy with
  | true =>
    simp only [if_true]
    cases originId with
    | arr values => exact iff_of_false (by rintro ⟨_, h⟩; cases h) fun h => h.1 trivial
    | obj fields => exact iff_of_false (by rintro ⟨_, h⟩; cases h) fun h => h.1 trivial
    | _ => exact iff_of_true ⟨_, rfl⟩ ⟨fun _ => trivial, fun h => by cases h⟩
  | false =>
    simp only [Bool.false_eq_true, if_false]
    constructor
    · rintro ⟨origins, read⟩
      obtain ⟨t, text, -⟩ := bind_ok.1 read
      exact ⟨fun h => h.elim, fun _ => ⟨t, textOf_eq_ok_iff.1 text⟩⟩
    · rintro ⟨-, text⟩
      obtain ⟨t, text⟩ := text trivial
      exact ⟨_, bind_ok.2 ⟨t, textOf_eq_ok_iff.2 text, rfl⟩⟩

theorem ne_nil_originsOf_iff {origins : List PyStr} (read : originsOf casefold all r = .ok origins) :
    origins ≠ [] ↔ OriginAmong casefold all r := by
  obtain ⟨origin, destination, kind, confidence, originId, destinationId⟩ := r
  unfold originsOf at read
  unfold OriginAmong
  cases given : originId.truthy with
  | true =>
    simp only [given, if_true] at read ⊢
    cases originId with
    | arr values => cases read
    | obj fields => cases read
    | str id =>
      cases read
      have known : (∃ symbol ∈ all, Json.str id = .str symbol.symbolId) ↔
          (all.any fun symbol => decide (symbol.symbolId = id)) = true := by
        rw [List.any_eq_true]
        refine exists_congr fun symbol => and_congr_right fun _ => ?_
        rw [decide_eq_true_eq, Json.str.injEq, eq_comm]
      rw [known, List.filter_singleton]
      cases all.any fun symbol => decide (symbol.symbolId = id) <;> simp
    | _ =>
      cases read
      refine iff_of_false (fun h => h rfl) ?_
      rintro ⟨_, _, ⟨⟩⟩
  | false =>
    simp only [given, Bool.false_eq_true, if_false] at read ⊢
    obtain ⟨t, text, read⟩ := bind_ok.1 read
    cases textOf_eq_ok_iff.1 text
    cases read
    rw [← List.isEmpty_eq_false_iff, List.isEmpty_eq_false_iff_exists_mem]
    constructor
    · rintro ⟨id, mem⟩
      obtain ⟨symbol, here, rfl⟩ := List.mem_map.1 (List.mem_dedup.1 (List.mem_of_mem_filter mem))
      obtain ⟨here, named⟩ := List.mem_filter.1 here
      exact ⟨symbol, here, t, rfl, of_decide_eq_true named⟩
    · rintro ⟨symbol, here, _, ⟨⟩, named⟩
      refine ⟨symbol.symbolId, List.mem_filter.2 ⟨?_, ?_⟩⟩
      · exact List.mem_dedup.2 (List.mem_map_of_mem (List.mem_filter.2 ⟨here, decide_eq_true named⟩))
      · exact List.any_eq_true.2 ⟨symbol, here, decide_eq_true rfl⟩

theorem exists_usedRelation_iff :
    (∃ used, usedRelation casefold all r = .ok used) ↔ (r.originId.truthy → IsHashable r.originId) ∧
      (r.originId.truthy = false → IsText r.origin) ∧ (OriginAmong casefold all r → IsText r.destination) ∧
      (OriginAmong casefold all r → r.destinationId.truthy → IsText r.destinationId) := by
  rw [← and_assoc, ← @exists_originsOf_iff casefold all r]
  constructor
  · rintro ⟨used, read⟩
    obtain ⟨origins, readOrigins, read⟩ := bind_ok.1 read
    rw [← ne_nil_originsOf_iff readOrigins]
    refine ⟨⟨origins, readOrigins⟩, ?_⟩
    split at read
    · rename_i none
      exact ⟨fun some => absurd none some, fun some => absurd none some⟩
    · obtain ⟨destination, readDestination, read⟩ := bind_ok.1 read
      obtain ⟨destinationId, readId, -⟩ := bind_ok.1 read
      refine ⟨fun _ => ⟨destination, textOf_eq_ok_iff.1 readDestination⟩, fun _ given => ?_⟩
      rw [givenText, if_pos given] at readId
      exact ⟨destinationId, textOf_eq_ok_iff.1 readId⟩
  · rintro ⟨⟨origins, readOrigins⟩, destination, destinationId⟩
    rw [← ne_nil_originsOf_iff readOrigins] at destination destinationId
    unfold usedRelation
    rw [readOrigins]
    change ∃ used, (if origins = [] then _ else _) = Except.ok used
    by_cases none : origins = []
    · rw [if_pos none]
      exact ⟨_, rfl⟩
    · obtain ⟨t, text⟩ := destination none
      have readId : ∃ t, givenText r.destinationId = .ok t := by
        unfold givenText
        by_cases given : r.destinationId.truthy = true
        · rw [if_pos given]
          exact exists_textOf_iff.2 (destinationId none given)
        · exact ⟨[], if_neg given⟩
      obtain ⟨i, readId⟩ := readId
      rw [if_neg none, text, readId]
      exact ⟨_, rfl⟩

theorem mem_symbols_iff (checked : Checked s) (read : symbols s = .ok all) (p : PyStr → PyStr → PyStr → Prop) :
    (∃ symbol ∈ all, p symbol.name symbol.qualifiedName symbol.symbolId) ↔ ∃ index < s.symbolCount, ∃ name qualified,
      PyStr.decode (textBytes s (symbolRow s index) 0) = some name ∧
      PyStr.decode (textBytes s (symbolRow s index) 1) = some qualified ∧ p name qualified (recordId s index) := by
  obtain ⟨paths, -, read⟩ := bind_ok.1 read
  constructor
  · rintro ⟨symbol, mem, holds⟩
    obtain ⟨index, small, here⟩ := (Except.mem_of_mapM_eq_ok read).1 mem
    have small := List.mem_range.1 small
    obtain ⟨name, qualified, -, id⟩ := symbolAt_eq_ok (checked.symbols index small) here
    exact ⟨index, small, _, _, name, qualified, id ▸ holds⟩
  · rintro ⟨index, small, name, qualified, hasName, hasQualified, holds⟩
    obtain ⟨symbol, here⟩ := Except.exists_mapM_eq_ok_iff.1 ⟨all, read⟩ index (List.mem_range.2 small)
    obtain ⟨name', qualified', -, id⟩ := symbolAt_eq_ok (checked.symbols index small) here
    cases hasName.symm.trans name'
    cases hasQualified.symm.trans qualified'
    exact ⟨symbol, (Except.mem_of_mapM_eq_ok read).2 ⟨index, List.mem_range.2 small, here⟩, id.symm ▸ holds⟩

theorem originAmong_iff {v : Json} (checked : Checked s) (read : symbols s = .ok all) (made : relationOf v = .ok r) :
    OriginAmong casefold all r ↔ HasOrigin casefold s v := by
  obtain ⟨-, -, origin, -, originId, -⟩ := relationOf_eq_ok made
  have decoded : ∀ index < s.symbolCount, ∃ name qualified,
      PyStr.decode (textBytes s (symbolRow s index) 0) = some name ∧
      PyStr.decode (textBytes s (symbolRow s index) 1) = some qualified := by
    intro index small
    have texts := ((exists_symbols_iff checked).1 ⟨all, read⟩).2 index small
    obtain ⟨name, hasName⟩ := Option.isSome_iff_exists.1 (texts 0 (by decide))
    obtain ⟨qualified, hasQualified⟩ := Option.isSome_iff_exists.1 (texts 1 (by decide))
    exact ⟨name, qualified, hasName, hasQualified⟩
  unfold OriginAmong HasOrigin
  rw [originId, origin]
  rw [mem_symbols_iff checked read fun name qualified id => if (fieldOf v "origin_id").truthy then
    fieldOf v "origin_id" = .str id else ∃ origin, fieldOf v "origin" = .str origin ∧
      (casefold name = casefold origin ∨ casefold qualified = casefold origin)]
  refine exists_congr fun index => and_congr_right fun small => ?_
  obtain ⟨name, qualified, hasName, hasQualified⟩ := decoded index small
  split
  · constructor
    · rintro ⟨_, _, -, -, same⟩
      exact same
    · exact fun same => ⟨name, qualified, hasName, hasQualified, same⟩
  · constructor
    · rintro ⟨name, qualified, hasName, hasQualified, origin, same, named⟩
      exact ⟨origin, name, qualified, same, hasName, hasQualified, named⟩
    · rintro ⟨origin, name, qualified, same, hasName, hasQualified, named⟩
      exact ⟨name, qualified, hasName, hasQualified, origin, same, named⟩

end Used

/-! ## All reads -/

theorem relations_eq {values : List Json}
    (loaded : loadsBytes (regionBytes s.map s.sections.relations) = .ok (.arr values)) :
    relations s = values.mapM relationOf := by
  unfold relations
  rw [loaded]
  rfl

theorem exists_invalidationClosure_iff {all : List Symbol} {found : List RelationValue} {changedPaths : List PyStr}
    {maxSymbols maxFiles : ℕ} (read : symbols s = .ok all) (readRelations : relations s = .ok found)
    (symbolsLeft : 1 ≤ maxSymbols) (filesLeft : 1 ≤ maxFiles) :
    (∃ closure, invalidationClosure casefold s changedPaths maxSymbols maxFiles = .ok closure) ↔
      ∀ r ∈ found, ∃ used, usedRelation casefold all r = .ok used := by
  rw [← Except.exists_mapM_eq_ok_iff]
  have limits : require (1 ≤ maxSymbols && 1 ≤ maxFiles)
      (.valueError "max_symbols and max_files must be positive") = .ok () := by
    rw [require_eq_ok_iff, decide_eq_true symbolsLeft, decide_eq_true filesLeft]
    rfl
  unfold invalidationClosure
  rw [limits, read, readRelations]
  constructor
  · rintro ⟨closure, ran⟩
    obtain ⟨⟨⟩, -, ran⟩ := bind_ok.1 ran
    obtain ⟨_, ⟨⟩, ran⟩ := bind_ok.1 ran
    obtain ⟨_, ⟨⟩, ran⟩ := bind_ok.1 ran
    obtain ⟨used, each, -⟩ := bind_ok.1 ran
    exact ⟨used, each⟩
  · rintro ⟨used, each⟩
    have some : ∃ closure, Snapshot.invalidationClosure casefold ⟨[], all, used.filterMap id⟩ changedPaths maxSymbols
        maxFiles = some closure := by
      unfold Snapshot.invalidationClosure
      rw [if_neg (by omega)]
      exact ⟨_, rfl⟩
    obtain ⟨closure, some⟩ := some
    refine ⟨closure, bind_ok.2 ⟨(), rfl, bind_ok.2 ⟨all, rfl, bind_ok.2
      ⟨found, rfl, bind_ok.2 ⟨used, each, ?_⟩⟩⟩⟩⟩
    rw [some]
    rfl

theorem readableRelation_iff {v : Json} {u : Unit} {all : List Symbol} (checked : Checked s)
    (valid : validateRelation v = .ok u) (read : symbols s = .ok all) :
    (∃ r, relationOf v = .ok r ∧ ∃ used, usedRelation casefold all r = .ok used) ↔ ReadableRelation casefold s v := by
  constructor
  · rintro ⟨r, made, used⟩
    rw [exists_usedRelation_iff, originAmong_iff checked read made] at used
    obtain ⟨known, complete, sameOrigin, sameDestination, sameOriginId, sameDestinationId⟩ := relationOf_eq_ok made
    rw [sameOrigin, sameDestination, sameOriginId, sameDestinationId] at used
    exact ⟨known, complete, used.1, used.2.1, used.2.2.1, used.2.2.2⟩
  · intro readable
    obtain ⟨r, made⟩ := exists_relationOf valid readable.known readable.complete
    obtain ⟨-, -, sameOrigin, sameDestination, sameOriginId, sameDestinationId⟩ := relationOf_eq_ok made
    refine ⟨r, made, ?_⟩
    rw [exists_usedRelation_iff, originAmong_iff checked read made, sameOrigin, sameDestination, sameOriginId,
      sameDestinationId]
    exact ⟨readable.originId, readable.origin, readable.destination, readable.destinationId⟩

/-- The reads of an open snapshot stay within its file, and they all return exactly when its texts and its relations
are readable. -/
theorem reads_iff_readable {map : Bytes} (opened : openSnapshot map = .ok s) :
    InRange s ∧ (Reads casefold s ↔ Readable casefold s) := by
  obtain ⟨inRange, checked⟩ := checked_of_openSnapshot opened
  obtain ⟨values, loaded, valid⟩ := checked.relations
  refine ⟨inRange, fun reads => ?_, fun readable => ?_⟩
  · obtain ⟨all, read⟩ := reads.symbols
    obtain ⟨found, readRelations⟩ := reads.relations
    refine ⟨(exists_files_iff checked).1 reads.files, ((exists_symbols_iff checked).1 reads.symbols).2, ?_⟩
    intro values' loaded' v mem
    cases loaded.symm.trans loaded'
    rw [← readableRelation_iff checked (valid v mem) read]
    have used := (exists_invalidationClosure_iff read readRelations le_rfl le_rfl).1 (reads.closure [] 1 1 le_rfl le_rfl)
    rw [relations_eq loaded] at readRelations
    obtain ⟨r, made⟩ := Except.exists_mapM_eq_ok_iff.1 ⟨found, readRelations⟩ v mem
    exact ⟨r, made, used r ((Except.mem_of_mapM_eq_ok readRelations).2 ⟨v, mem, made⟩)⟩
  · have files := (exists_files_iff checked).2 readable.files
    have symbols := (exists_symbols_iff checked).2 ⟨files, readable.symbols⟩
    obtain ⟨all, read⟩ := symbols
    have usable (v : Json) (mem : v ∈ values) :=
      (readableRelation_iff checked (valid v mem) read).2 (readable.relations values loaded v mem)
    obtain ⟨found, readRelations⟩ := Except.exists_mapM_eq_ok_iff.2 fun v mem => (usable v mem).imp fun r h => h.1
    rw [← relations_eq loaded] at readRelations
    refine ⟨files, ⟨all, read⟩, exists_search checked ⟨all, read⟩, exists_findExact checked ⟨all, read⟩,
      ⟨found, readRelations⟩, fun changedPaths maxSymbols maxFiles symbolsLeft filesLeft => ?_⟩
    refine (exists_invalidationClosure_iff read readRelations symbolsLeft filesLeft).2 fun r mem => ?_
    rw [relations_eq loaded] at readRelations
    obtain ⟨v, here, made⟩ := (Except.mem_of_mapM_eq_ok readRelations).1 mem
    obtain ⟨r', made', used⟩ := usable v here
    cases made.symm.trans made'
    exact used

def sampleRelations : Bytes := PyStr.asciiBytes "[\x7b\"kind\":\"import\",\"confidence\":1\x7d]"

def sampleSections (indexBytes : Bytes) : List (PyStr × Bytes) :=
  [("files", []), ("symbols", []), ("relations", sampleRelations), ("indexes", indexBytes), ("strings", [])]

theorem opened_sample : ∃ map s, openSnapshot map = .ok s ∧ ¬ ∃ found, relations s = .ok found := by
  have ran : ((do
      let indexBytes ← jsonBytes (indexes id [] (bootstrapProvenance "r"))
      let map ← packSections (sampleSections indexBytes) 0
      openRecords map (packedRegions [] [] sampleRelations indexBytes []) :
        Except SnapshotRaised OpenSnapshot).toOption.map fun s => (relations s).isOk) = some false := by decide +kernel
  obtain ⟨s, ran, raises⟩ := Except.exists_of_map_toOption ran
  obtain ⟨indexBytes, -, ran⟩ := bind_ok.1 ran
  obtain ⟨map, packed, ran⟩ := bind_ok.1 ran
  have opened : openSnapshot map = .ok s := (openSnapshot_packSections packed).trans ran
  refine ⟨map, s, opened, ?_⟩
  rintro ⟨found, read⟩
  rw [read] at raises
  cases raises

/-- That snapshot stays within its file and is not readable. -/
theorem reads_iff_readable_sample :
    ∃ map s, openSnapshot map = .ok s ∧ InRange s ∧ ¬ Readable PyStr.asciiCasefold s := by
  obtain ⟨map, s, opened, raises⟩ := opened_sample
  obtain ⟨inRange, same⟩ := reads_iff_readable opened
  exact ⟨map, s, opened, inRange, fun readable => raises (same.2 readable).relations⟩

/-- A snapshot can be opened when not all of it can be read. -/
theorem not_reads_of_opened : ¬ ∀ map s, openSnapshot map = .ok s → Reads PyStr.asciiCasefold s := by
  intro reads
  obtain ⟨map, s, opened, raises⟩ := opened_sample
  exact raises (reads map s opened).relations

end SnapshotFormat

end SimplicioFast
