import SimplicioFast.Lib.Conversions
import SimplicioFast.Lib.Fields
import SimplicioFast.Lib.JsonWide
import SimplicioFast.Snapshot.Written

/-!
# Snapshots of mapper payloads

`compile_mapper_payload` makes a snapshot of the symbols, files and relations that the mapper found.  It goes over the
files and takes the symbols of each, so what becomes of a symbol depends on how often its file is listed.

The source files, `str`, `float` and `str.casefold` are parameters.  The sidecar file is left out.
-/

namespace SimplicioFast

namespace MapperSnapshot

open SnapshotFormat

/-- What the function uses of its surroundings: the conversions of Python, the bytes of the files in the root, by the text
behind it, and the name of the root. -/
structure Host where
  conversions : Conversions
  float : Json → Except SnapshotRaised Decimal
  casefold : PyStr → PyStr
  source : PyStr → Option Bytes
  rootName : PyStr

/-- The arguments behind the root, but for the digest of the handoff, the generation being a text. -/
structure Options where
  mapperGeneration : PyStr
  handoffSha256 : PyStr
  mapperProvenance : Option JsonObject

def kindAliases : List (PyStr × PyStr) :=
  [("method", "function"), ("constructor", "function"), ("field", "property"), ("constant", "property"),
    ("variable", "property"), ("module", "namespace"), ("package", "namespace"), ("record", "class"),
    ("delegate", "function")]

/-- The texts of the kinds of relations that are kept. -/
def relationKinds : List PyStr := ["import", "reference", "call", "definition", "test"]

/-- `raise ValueError(message)`. -/
def invalid {α : Type} (message : PyStr) : Except SnapshotRaised α := .error (.valueError message)

def listOf (payload : JsonObject) (key : PyStr) : Except SnapshotRaised (List Json) :=
  match payload.get? key with
  | some (.arr items) => .ok items
  | _ => invalid "mapper_payload_shape_invalid"

def textOf (item : List (PyStr × Json)) (key message : PyStr) : Except SnapshotRaised PyStr :=
  match Dict.find item key with
  | some (.str t) => .ok t
  | _ => invalid message

def integerOf : Option Json → Except SnapshotRaised ℤ
  | some (.int n) => .ok n
  | _ => invalid "mapper_symbol_invalid"

/-- `path.replace("\\", "/")`. -/
def normalized (path : PyStr) : PyStr := PyStr.replace [.scalar '\\'] [.scalar '/'] path

section Compile

variable (host : Host)

/-- `str(value or default)`. -/
def orText (value : Option Json) (default : PyStr) : PyStr :=
  match value with
  | some v => if v.truthy then host.conversions.str v else default
  | none => default

def internalId (mapperId : PyStr) : Except SnapshotRaised PyStr :=
  match (("mapper:" : PyStr) ++ mapperId).encode with
  | some b => .ok (PyStr.ofChars (Sha256.hexdigest b))
  | none => .error .unicodeEncodeError

/-- `_kind`. -/
def kindOf (value : Option Json) : PyStr :=
  let candidate := host.casefold (orText host value "function")
  let candidate := (Dict.find kindAliases candidate).getD candidate
  if (Dict.find KIND_TO_ID candidate).isSome then candidate else "function"

/-- The symbol of an item, with its id for the mapper. -/
def symbolOf : Json → Except SnapshotRaised (PyStr × Symbol)
  | .obj item => do
    let mapperId ← textOf item "id" "mapper_symbol_invalid"
    let relative ← textOf item "file" "mapper_symbol_invalid"
    let line ← integerOf (Dict.find item "line")
    let endLine ← integerOf ((Dict.find item "end_line").orElse fun _ => Dict.find item "line")
    require (1 ≤ line && line ≤ endLine) (.valueError "mapper_symbol_invalid")
    let id ← internalId mapperId
    return (mapperId, {
      name := orText host (Dict.find item "name") (((PyStr.rsplit? "::" mapperId).map Prod.snd).getD mapperId)
      qualifiedName := orText host (Dict.find item "qualified_name") mapperId
      kind := kindOf host (Dict.find item "kind")
      file := normalized relative
      line := line.toNat
      endLine := endLine.toNat
      symbolId := id
      signature := mapperId })
  | _ => invalid "mapper_symbol_invalid"

/-- `declared not in {actual, normalized}`. -/
def declares (digests : List PyStr) : Option Json → Except SnapshotRaised Bool
  | some (.str t) => .ok (t ∈ digests)
  | some (.arr _) | some (.obj _) => .error .typeError
  | _ => .ok false

/-- The entry of a file, with the symbols of that file. -/
def entryOf (symbols : List Symbol) : Json → Except SnapshotRaised FileEntry
  | .obj item => do
    let path ← textOf item "path" "mapper_file_invalid"
    let relative := normalized path
    match host.source relative with
    | none => invalid "mapper_source_missing"
    | some data =>
      match PyStr.decodeChars data with
      | none => .error .unicodeDecodeError
      | some chars =>
        let lines := (PyStr.replace "\r\n" "\n" (PyStr.ofChars chars)).encode.getD []
        let declared ← declares [PyStr.ofChars (Sha256.hexdigest data), PyStr.ofChars (Sha256.hexdigest lines)]
          (Dict.find item "sha256")
        require declared (.valueError "mapper_source_digest_mismatch")
        return ⟨relative, Sha256.digest data, data.length, symbols.filter fun s => s.file = relative⟩
  | _ => invalid "mapper_file_invalid"

/-- The relations of an item: none when its kind is not kept. -/
def relationOf (mapperIds : Dict PyStr PyStr) : Json → Except SnapshotRaised (List Relation)
  | .obj item =>
    let kind := orText host (Dict.find item "kind") "reference"
    if kind ∈ relationKinds then do
      let confidence ← host.float ((Dict.find item "confidence").getD (.float (.make false 0 1)))
      return [{
        origin := orText host (Dict.find item "origin") []
        destination := orText host (Dict.find item "destination") []
        kind := kind
        confidence := confidence
        originId := (mapperIds.get? (orText host (Dict.find item "origin_id") [])).getD []
        destinationId := (mapperIds.get? (orText host (Dict.find item "destination_id") [])).getD [] }]
    else .ok []
  | _ => invalid "mapper_relation_invalid"

/-- `capability_coverage`. -/
def coverageOf (files symbols : List Json) : Option Json → Json
  | some (.obj fields) => .obj fields
  | _ => .obj [("context_graph", .bool true), ("files", .bool (!files.isEmpty)), ("symbols", .bool (!symbols.isEmpty)),
      ("relations", .bool true), ("source_hashes", .bool true), ("stable_handles", .bool true)]

/-- `provenance`. -/
def provenanceOf (options : Options) (files symbols : List Json) : Except SnapshotRaised Json := do
  let source := options.mapperProvenance.getD .empty
  require ((source.get? "generation").all (isText options.mapperGeneration ∘ some))
    (.valueError "mapper_generation_mismatch")
  let given := orText host (source.get? "artifact_digest") options.handoffSha256
  let artifactDigest : PyStr := if ("sha256:" : PyStr).isPrefixOf given then given.drop 7 else given
  require (PyStr.isSha256 artifactDigest) (.valueError "mapper_artifact_digest_invalid")
  return .obj [("schema", .str SNAPSHOT_PROVENANCE_SCHEMA), ("mode", .str "integrated"),
    ("authority", .str "simplicio-mapper"),
    ("mapper_schema", .str (orText host (source.get? "mapper_schema") MAPPER_HANDOFF_SCHEMA)),
    ("mapper_version", .str (orText host (source.get? "mapper_version") "unknown")),
    ("repository_id", .str (orText host (source.get? "repository_id") host.rootName)),
    ("mapper_generation", .str options.mapperGeneration), ("artifact_digest", .str artifactDigest),
    ("fast_format_version", .int VERSION),
    ("capability_coverage", coverageOf files symbols (source.get? "capability_coverage"))]

/-- The checks before the lists are gone over. -/
def checkPayload (payload : JsonObject) (options : Options) : Except SnapshotRaised Unit := do
  require (isText "simplicio.fast.parser-adapter/v1" (payload.get? "schema"))
    (.valueError "mapper_payload_schema_unsupported")
  require (isText "integrated" (payload.get? "mode")) (.valueError "mapper_projection_requires_canonical_input")
  require (options.mapperGeneration.strip ≠ []) (.valueError "mapper_generation_missing")

/-- What `compile_mapper_payload` makes of a payload. -/
structure Compiled where
  symbols : List Symbol
  entries : List FileEntry
  snapshot : Bytes

def compileMapperPayload (payload : JsonObject) (options : Options) : Except SnapshotRaised Compiled := do
  checkPayload payload options
  let files ← listOf payload "files"
  let symbols ← listOf payload "symbols"
  let relations ← listOf payload "relations"
  let found ← symbols.mapM (symbolOf host)
  let entries ← files.mapM (entryOf host (found.map Prod.snd))
  let mapperIds := found.foldl (fun (d : Dict PyStr PyStr) s => d.set s.1 s.2.symbolId) .empty
  let compiledRelations ← relations.mapM (relationOf host mapperIds)
  let provenance ← provenanceOf host options files symbols
  let snapshot ← buildV2 host.casefold entries compiledRelations.flatten (some provenance)
  return ⟨found.map Prod.snd, entries, snapshot⟩

end Compile

end MapperSnapshot

end SimplicioFast
