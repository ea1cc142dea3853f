import SimplicioFast.Rust.Reader

/-!
# Queries of the Rust reader

`query_filtered_after` looks up a term in the indexes of a snapshot and decodes the records of the symbols that it
finds, up to a limit.  The maps of the indexes are sorted by their keys.

`str::to_lowercase` is a parameter.  A decoded record lies in its section, so that reading its integers cannot fail.
-/

namespace SimplicioFast

namespace RustCore

structure RustSymbol where
  name : PyStr
  qualifiedName : PyStr
  kind : PyStr
  file : PyStr
  line : ℕ
  endLine : ℕ
  symbolId : PyStr
  signature : PyStr
deriving DecidableEq

/-- `QueryReceipt`. -/
structure SymbolReceipt where
  found : List RustSymbol
  selectedIndex : PyStr
  candidatesVisited : ℕ
  recordsDecoded : ℕ
  nextCursor : Option PyStr

def kindNames : List (ℕ × PyStr) :=
  [(1, "class"), (2, "function"), (3, "async_function"), (4, "import"), (5, "namespace"), (6, "interface"),
    (7, "struct"), (8, "trait"), (9, "enum")]

def kindName (kind : ℕ) : Except SnapshotError PyStr :=
  match kindNames.lookup kind with
  | some name => .ok name
  | none => .error (.invalid "unknown symbol kind")

namespace SnapshotReader

variable (r : SnapshotReader)

def readText (offset length : ℕ) : Except SnapshotError PyStr := do
  let strings := sectionOf r.sections "strings"
  ensure (regionValid offset length strings.2) "string bounds out of range"
  match PyStr.decode (Bytes.slice r.bytes (strings.1 + offset) (strings.1 + offset + length)) with
  | none => .error (.invalid "invalid UTF-8 string")
  | some text => .ok text

def fileAt (index : ℕ) : Except SnapshotError PyStr := do
  let files := sectionOf r.sections "files"
  let base := files.1 + index * FILE_RECORD_SIZE
  ensure (index < files.2 / FILE_RECORD_SIZE) "symbol file index out of bounds"
  r.readText (intAt 4 r.bytes base) (intAt 4 r.bytes (base + 4))

def fileInfo : Except SnapshotError (List (PyStr × Bytes)) :=
  let files := sectionOf r.sections "files"
  (List.range (files.2 / FILE_RECORD_SIZE)).mapM fun index => do
    let base := files.1 + index * FILE_RECORD_SIZE
    let path ← r.fileAt index
    return (path, Bytes.slice r.bytes (base + 16) (base + 48))

def symbolAt (index : ℕ) : Except SnapshotError RustSymbol := do
  let base := (sectionOf r.sections "symbols").1 + index * SYMBOL_RECORD_SIZE
  let number (offset : ℕ) : ℕ := intAt 4 r.bytes (base + offset)
  let file ← r.fileAt (number 24)
  let name ← r.readText (number 0) (number 4)
  let qualifiedName ← r.readText (number 8) (number 12)
  let signature ← r.readText (number 16) (number 20)
  let kind ← kindName (number 36)
  return {
    name, qualifiedName, kind, file, signature
    line := number 28
    endLine := number 32
    symbolId := PyStr.ofChars (Bytes.hex (Bytes.slice r.bytes (base + 40) (base + 72))) }

/-- `add_index_values`, of the values of several entries. -/
def addIndexValues (symbolCount : ℕ) (entries : List (List ℕ)) (candidates : List ℕ) :
    Except SnapshotError (List ℕ) := do
  ensure (entries.flatten.all (· < symbolCount)) "persisted index record out of bounds"
  return candidates ++ entries.flatten

/-- The values of the entries whose keys begin with the needle. -/
def entriesWithPrefix (needle : PyStr) (index : List (PyStr × List ℕ)) : List (List ℕ) :=
  ((index.dropWhile fun e => e.1 < needle).takeWhile fun e => needle.isPrefixOf e.1).map Prod.snd

/-- Whether the needle occurs in the key. -/
def keyContains (needle key : PyStr) : Bool := key.tails.any fun t => needle.isPrefixOf t

/-- The values of the entries whose keys contain the needle. -/
def entriesContaining (needle : PyStr) (index : List (PyStr × List ℕ)) : List (List ℕ) :=
  (index.filter fun e => keyContains needle e.1).map Prod.snd

/-- The entries that a needle selects, and the index that is named for it. -/
def select (needle : PyStr) : List (List ℕ) × PyStr :=
  let hits := [r.indexes.names, r.indexes.exact_].filterMap fun index => index.lookup needle
  if hits ≠ [] then (hits, "persisted.exact")
  else
    let withPrefix := if needle = [] then []
      else entriesWithPrefix needle r.indexes.names ++ entriesWithPrefix needle r.indexes.exact_
    (withPrefix, if withPrefix.flatten = [] then "legacy.names+exact-substring" else "persisted.prefix")

/-- A turn of the loop over the filters. -/
def applyFilter (symbolCount : ℕ) (filter : Option PyStr) (index : List (PyStr × List ℕ)) (label : PyStr)
    (state : List ℕ × PyStr) : Except SnapshotError (List ℕ × PyStr) :=
  match filter with
  | none => .ok state
  | some filter => match index.lookup filter with
    | none => .ok ([], state.2)
    | some values => do
      let allowed ← addIndexValues symbolCount [values] []
      return (state.1.filter (· ∈ allowed), state.2 ++ ("+" : PyStr) ++ label)

def queryFilteredAfter (toLowercase : PyStr → PyStr) (term : PyStr) (path kind : Option PyStr) (limit : ℕ)
    (cursor : Option ℕ) : Except SnapshotError SymbolReceipt := do
  ensure (limit ≠ 0) "query limit must be positive"
  let needle := toLowercase term
  let symbolCount := (sectionOf r.sections "symbols").2 / SYMBOL_RECORD_SIZE
  let (selected, selectedIndex) := r.select needle
  let candidates ← addIndexValues symbolCount selected []
  let scanned := if candidates = [] then
    entriesContaining needle r.indexes.names ++ entriesContaining needle r.indexes.exact_ else []
  let candidates ← addIndexValues symbolCount scanned candidates
  let state ← applyFilter symbolCount path r.indexes.paths "path" (candidates, selectedIndex)
  let (candidates, selectedIndex) ← applyFilter symbolCount kind r.indexes.kinds "kind" state
  let ordered := (candidates.dedup.insertionSort (· ≤ ·)).filter fun index => cursor.all fun after => after < index
  let selectedIds := ordered.take limit
  let nextCursor := if selectedIds.length = limit ∧ limit < ordered.length then
    selectedIds.getLast?.map fun index => Json.writeInt index else none
  let found ← selectedIds.mapM r.symbolAt
  return { found, selectedIndex, candidatesVisited := (selected ++ scanned).flatten.length,
           recordsDecoded := found.length, nextCursor }

def query (toLowercase : PyStr → PyStr) (term : PyStr) (limit : ℕ) : Except SnapshotError (List RustSymbol) := do
  let receipt ← r.queryFilteredAfter toLowercase term none none limit none
  return receipt.found

end SnapshotReader

end RustCore

end SimplicioFast
