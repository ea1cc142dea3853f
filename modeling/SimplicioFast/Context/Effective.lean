import SimplicioFast.Context.Source
import SimplicioFast.Snapshot.Search

/-!
# The context of a snapshot with an overlay

`EffectiveSnapshot.context_many`.  `str.casefold` is a parameter.
-/

namespace SimplicioFast

/-- A record of `Overlay.changed`; a removed file has no digest. -/
structure ChangedFile where
  sha256 : Option PyStr
  symbols : List Symbol

structure Overlay where
  overlayGeneration : PyStr
  changed : Dict PyStr ChangedFile

/-- `EffectiveSnapshot`, with the entries of its manifest that are read. -/
structure EffectiveSnapshot where
  base : SnapshotMethods
  baseGeneration : PyStr
  sourceHashes : Dict PyStr PyStr
  overlay : Option Overlay

namespace EffectiveSnapshot

open PyStr (utf8 decodeIgnore)
open Context

variable (casefold : PyStr → PyStr) (e : EffectiveSnapshot)

def overlayGeneration : Option PyStr := e.overlay.map Overlay.overlayGeneration

def overlaySymbols : List Symbol :=
  match e.overlay with
  | none => []
  | some overlay => overlay.changed.values.flatMap ChangedFile.symbols

/-- The symbol with the generations of the snapshot. -/
def withGenerations (symbol : Symbol) : Symbol :=
  { symbol with baseGeneration := some e.baseGeneration, overlayGeneration := e.overlayGeneration }

/-- Whether the overlay has a record of the file. -/
def replaced (file : PyStr) : Bool := e.overlay.any fun overlay => (overlay.changed.get? file).isSome

/-- The order of the symbols: by name, qualified name, file and line. -/
def symbolLe (s t : Symbol) : Bool :=
  s.name < t.name || s.name = t.name && (s.qualifiedName < t.qualifiedName || s.qualifiedName = t.qualifiedName &&
    (s.file < t.file || s.file = t.file && s.line ≤ t.line))

def symbols : Except SnapshotRaised (List Symbol) := do
  let found ← e.base.symbols
  let base := (found.filter fun symbol => !e.replaced symbol.file).map e.withGenerations
  return (base ++ e.overlaySymbols.map e.withGenerations).insertionSort fun s t => symbolLe s t = true

/-- Whether the name or the qualified name of a symbol contains the needle. -/
def named (needle : PyStr) (symbol : Symbol) : Bool :=
  needle.contains (casefold symbol.name) || needle.contains (casefold symbol.qualifiedName)

def find (query : PyStr) : Except SnapshotRaised (List Symbol) := do
  let found ← e.symbols
  return found.filter (named casefold (casefold query))

/-- The digest that a file must have; an empty one counts as none. -/
def expectedHash (file : PyStr) : Option PyStr :=
  match ((e.overlay.bind fun overlay => overlay.changed.get? file).bind ChangedFile.sha256).filter (· ≠ []) with
  | some digest => some digest
  | none => e.sourceHashes.get? file

def prefixBytes (text : List Char) (line : ℤ) : ℕ :=
  (utf8 (joinLines (slice (lines text) 0 (line - 1)))).length + if 1 < line then 1 else 0

/-- The state with the span of a symbol; `whole` is the content before it was cut. -/
def deliver (limits : ContextLimits) (symbol : Symbol) (contents : Bytes) (text whole content : List Char) (tokens : ℕ)
    (tokensCut : Bool) (st : ContextState) : ContextState :=
  let start : ℤ := symbol.line
  let requestedEnd : ℤ := symbol.endLine
  let stop := boundedEnd limits symbol
  let bytesCut := decide ((utf8 (decodeIgnore ((utf8 whole).take (limits.maxBytes - st.consumed)))).length <
    (utf8 whole).length)
  let truncated := decide (stop < requestedEnd) || bytesCut || tokensCut
  let contentTruncated := truncated && decide ((utf8 content).length < (utf8 whole).length)
  let delivered := deliveredEnd start stop content contentTruncated
  let omitted := omittedStart start delivered content contentTruncated
  { spans := st.spans ++ [{
      symbol := symbol.qualifiedName
      kind := symbol.kind
      file := symbol.file
      startLine := start
      endLine := delivered
      sourceSha256 := hexdigest contents
      content
      tokens
      baseGeneration := some e.baseGeneration
      overlayGeneration := e.overlayGeneration
      requestedStartLine := start
      requestedEndLine := requestedEnd
      startByte := prefixBytes text start
      endByte := prefixBytes text start + (utf8 content).length
      contentSha256 := hexdigest (utf8 content)
      fidelity := if truncated then "partial" else "complete"
      omittedRanges := omittedRanges truncated omitted requestedEnd
      needsBroaderContext := truncated }]
    consumed := st.consumed + (utf8 content).length
    consumedTokens := st.consumedTokens + tokens
    seen := (symbol.file, start, stop) :: st.seen }

/-- The body of the inner loop of `context_many`. -/
def contextTurn (tree : SourceTree) (limits : ContextLimits) (st : ContextState) (symbol : Symbol) :
    Except ContextRaised (Turn ContextState) :=
  if limits.maxResults ≤ st.spans.length then .ok (.returned st)
  else do
    let (contents, text) ← readSource tree symbol.file
    if some (hexdigest contents) ≠ e.expectedHash symbol.file then
      .error (.staleSnapshot (("source changed after generation: " : PyStr) ++ symbol.file ++
        ("; run refresh" : PyStr)))
    else if (symbol.file, (symbol.line : ℤ), boundedEnd limits symbol) ∈ st.seen then .ok (.next st)
    else
      let whole := snippet text symbol.line (boundedEnd limits symbol)
      let remaining := limits.maxBytes - st.consumed
      if remaining = 0 then .ok (.returned st)
      else
        match cutTokens limits.maxTokens st.consumedTokens (decodeIgnore ((utf8 whole).take remaining)) with
        | none => .ok (.returned st)
        | some (content, tokens, tokensCut) =>
          .ok (.next (e.deliver limits symbol contents text whole content tokens tokensCut st))

/-- The body of the outer loop of `context_many`. -/
def contextQuery (tree : SourceTree) (limits : ContextLimits) (st : ContextState) (query : PyStr) :
    Except ContextRaised (Turn ContextState) := do
  let found ← (e.find casefold query).mapError .snapshot
  Turn.scan (e.contextTurn tree limits) found st

def contextMany (tree : SourceTree) (queries : List PyStr) (limits : ContextLimits) :
    Except ContextRaised (List ContextSpan) := do
  checkLimits limits
  let t ← Turn.scan (e.contextQuery casefold tree limits) queries ⟨[], 0, 0, []⟩
  return t.state.spans

end EffectiveSnapshot

end SimplicioFast
