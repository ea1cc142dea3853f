import SimplicioFast.Context.Source
import SimplicioFast.Snapshot.Search

/-!
# The context of a snapshot

`Snapshot.context_many`.
-/

namespace SimplicioFast

namespace SnapshotMethods

open PyStr (utf8 decodeIgnore)
open Context
open SnapshotFormat (isText)

/-- The keys of the provenance of a snapshot, with those of a Mapper handoff, that `matches_mapper` compares. -/
def mapperKeys : List (PyStr × PyStr) :=
  [("mapper_schema", "mapper_schema"), ("mapper_version", "mapper_version"), ("repository_id", "repository_id"),
    ("mapper_generation", "generation"), ("artifact_digest", "artifact_digest")]

def matchesMapper (provenance mapper : Json) : Bool :=
  isText "integrated" (provenance.get? "mode") && mapperKeys.all fun (snapshotKey, mapperKey) =>
    ((provenance.get? snapshotKey).getD .null).pyEq ((mapper.get? mapperKey).getD .null)

def requireMapper (provenance mapper : Json) : Except ContextRaised Unit :=
  if matchesMapper provenance mapper then .ok ()
  else .error (.staleSnapshot "snapshot Mapper provenance differs from the requested canonical generation")

def expectedHashes (files : List (PyStr × Bytes)) : Dict PyStr Bytes :=
  files.foldl (fun d f => d.set f.1 f.2) .empty

/-- `source_start`: the offset of a line, where only a line feed ends one. -/
def sourceStart (contents : Bytes) (start : ℤ) : ℕ :=
  let starts := 0 :: (contents.zipIdx.filter fun b => b.1 = 10).map fun b => b.2 + 1
  ((slice starts (min (start - 1) (starts.length - 1)) starts.length).head?).getD 0

/-- The cut to the bytes that are left: the content, and whether it was cut; `none` stands for `return spans`. -/
def cutBytes (maxBytes consumed : ℕ) (snippet : List Char) : Option (List Char × Bool) :=
  if maxBytes < consumed + (utf8 snippet).length then
    let remaining := maxBytes - consumed
    if remaining = 0 then none
    else some (decodeIgnore ((utf8 snippet).take remaining), true)
  else some (snippet, false)

/-- The state with the span of a symbol. -/
def deliver (limits : ContextLimits) (symbol : Symbol) (contents : Bytes) (content : List Char) (tokens : ℕ)
    (contentTruncated : Bool) (st : ContextState) : ContextState :=
  let start : ℤ := symbol.line
  let requestedEnd : ℤ := symbol.endLine
  let stop := boundedEnd limits symbol
  let truncated := decide (stop < requestedEnd) || contentTruncated
  let delivered := deliveredEnd start stop content contentTruncated
  let omitted := omittedStart start delivered content contentTruncated
  { spans := st.spans ++ [{
      symbol := symbol.qualifiedName
      kind := symbol.kind
      file := symbol.file
      startLine := start
      endLine := delivered
      sourceSha256 := hexdigest contents
      content
      symbolId := symbol.symbolId
      tokens
      requestedStartLine := start
      requestedEndLine := requestedEnd
      startByte := sourceStart contents start
      endByte := sourceStart contents start + (utf8 content).length
      contentSha256 := hexdigest (utf8 content)
      fidelity := if truncated then "partial" else "complete"
      omittedRanges := omittedRanges truncated omitted requestedEnd
      needsBroaderContext := truncated }]
    consumed := st.consumed + (utf8 content).length
    consumedTokens := st.consumedTokens + tokens
    seen := (symbol.file, start, stop) :: st.seen }

/-- The body of the inner loop of `context_many`. -/
def contextTurn (expected : Dict PyStr Bytes) (tree : SourceTree) (limits : ContextLimits) (st : ContextState)
    (symbol : Symbol) : Except ContextRaised (Turn ContextState) :=
  if limits.maxResults ≤ st.spans.length then .ok (.returned st)
  else
    match expected.get? symbol.file with
    | none => invalid (("symbol references unknown file: " : PyStr) ++ symbol.file)
    | some digest => do
      let (contents, text) ← readSource tree symbol.file
      if Sha256.digest contents ≠ digest then
        .error (.staleSnapshot (("source changed after snapshot: " : PyStr) ++ symbol.file ++
          ("; run simplicio-fast refresh" : PyStr)))
      else if (symbol.file, (symbol.line : ℤ), boundedEnd limits symbol) ∈ st.seen then .ok (.next st)
      else
        match cutBytes limits.maxBytes st.consumed (snippet text symbol.line (boundedEnd limits symbol)) with
        | none => .ok (.returned st)
        | some (content, bytesCut) => match cutTokens limits.maxTokens st.consumedTokens content with
          | none => .ok (.returned st)
          | some (content, tokens, tokensCut) =>
            .ok (.next (deliver limits symbol contents content tokens (bytesCut || tokensCut) st))

variable (s : SnapshotMethods)

/-- The body of the outer loop of `context_many`. -/
def contextQuery (expected : Dict PyStr Bytes) (tree : SourceTree) (limits : ContextLimits) (st : ContextState)
    (query : PyStr) : Except ContextRaised (Turn ContextState) := do
  let found ← (s.find query).mapError .snapshot
  Turn.scan (contextTurn expected tree limits) found st

def contextMany (tree : SourceTree) (queries : List PyStr) (limits : ContextLimits) (mapperProvenance : Option Json) :
    Except ContextRaised (List ContextSpan) := do
  checkLimits limits
  mapperProvenance.forM (requireMapper s.provenance)
  let found ← s.files.mapError .snapshot
  let t ← Turn.scan (s.contextQuery (expectedHashes found) tree limits) queries ⟨[], 0, 0, []⟩
  return t.state.spans

end SnapshotMethods

end SimplicioFast
