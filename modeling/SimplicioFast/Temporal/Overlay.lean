import SimplicioFast.Lib.JsonParse
import SimplicioFast.Lib.Machine
import SimplicioFast.Lib.Sha256

/-!
# The bitemporal overlay

`BitemporalOverlay` keeps the versions of every fact under its canonical id, oldest first.  A version
is valid from one world sequence to another; the last one is open.  `append` closes the open version
and adds a new one, `tombstone`, `rename` and `invalidate_dependencies` are built from it, and
`as_of` reads the versions that are valid at a world sequence.
-/

namespace SimplicioFast

/-- The exceptions that an overlay method raises. -/
inductive TemporalRaised
  | invariantError (reasonCode message : PyStr)
  | valueError (message : PyStr)
deriving DecidableEq

/-- `STATES`. -/
inductive FactState
  | active
  | superseded
  | tombstoned
  | held
deriving DecidableEq

namespace FactState

def name : FactState → PyStr
  | active => "active"
  | superseded => "superseded"
  | tombstoned => "tombstoned"
  | held => "held"

def ofName? (s : PyStr) : Option FactState :=
  [active, superseded, tombstoned, held].find? fun t => t.name = s

end FactState

def FACT_SCHEMA : PyStr := "simplicio.fast.bitemporal-fact/v1"

/-- One version of a fact. -/
structure BitemporalFact where
  canonicalId : PyStr
  repository : PyStr
  baseGeneration : PyStr
  overlayGeneration : Option PyStr
  sourceCommit : PyStr
  sourceSha256 : PyStr
  artifactDigest : PyStr
  validFrom : ℤ
  validTo : Option ℤ
  observedAt : ℤ
  invalidatedAt : Option ℤ
  state : FactState
  reasonCode : Option PyStr
  predecessor : Option PyStr
  successor : Option PyStr
  dependencies : List PyStr
  provenance : JsonObject

namespace BitemporalFact

def unsignedRecord (f : BitemporalFact) : Json :=
  .obj [("schema", .str FACT_SCHEMA), ("canonical_id", .str f.canonicalId),
    ("repository", .str f.repository), ("base_generation", .str f.baseGeneration),
    ("overlay_generation", Json.optStr f.overlayGeneration),
    ("source_commit", .str f.sourceCommit), ("source_sha256", .str f.sourceSha256),
    ("artifact_digest", .str f.artifactDigest), ("valid_from", .int f.validFrom),
    ("valid_to", Json.optInt f.validTo), ("observed_at", .int f.observedAt),
    ("invalidated_at", Json.optInt f.invalidatedAt), ("state", .str f.state.name),
    ("reason_code", Json.optStr f.reasonCode), ("predecessor", Json.optStr f.predecessor),
    ("dependencies", .arr (f.dependencies.map .str)), ("provenance", f.provenance.toJson)]

/-- The property `digest`. -/
def digest (f : BitemporalFact) : PyStr :=
  PyStr.ofChars (Sha256.hexdigest (PyStr.encodeAscii (f.unsignedRecord.dumps true)))

end BitemporalFact

/-- The overlay. -/
structure BitemporalOverlay where
  repository : PyStr
  baseGeneration : PyStr
  overlayGeneration : Option PyStr
  facts : Dict PyStr (List BitemporalFact)
  worldSequence : ℤ
  observedSequence : ℤ

/-- The keyword arguments of `append`, without the private `_allow_same_world`. -/
structure FactArgs where
  sourceCommit : PyStr
  sourceSha256 : PyStr
  artifactDigest : PyStr
  validFrom : Option ℤ := none
  state : PyStr := "active"
  reasonCode : Option PyStr := none
  predecessor : Option PyStr := none
  dependencies : List PyStr := []
  provenance : JsonObject := .empty

/-- What `invalidate_dependencies` returns. -/
structure Invalidation where
  status : PyStr
  changedIds : List PyStr
  affectedIds : List PyStr
  reasonCode : PyStr

namespace BitemporalOverlay

/-- `__init__`. -/
def new (repository baseGeneration : PyStr) (overlayGeneration : Option PyStr) :
    Except TemporalRaised BitemporalOverlay :=
  if repository = [] ∨ baseGeneration = [] then
    .error (.valueError "repository and base_generation are required")
  else .ok ⟨repository, baseGeneration, overlayGeneration, .empty, 0, 0⟩

/-- `_current`: the last version, when it is open. -/
def current (s : BitemporalOverlay) (canonicalId : PyStr) : Option BitemporalFact :=
  match (s.facts.get? canonicalId).bind List.getLast? with
  | some f => if f.validTo = none then some f else none
  | none => none

def validateDigest (field value : PyStr) : Except TemporalRaised Unit :=
  if value.isSha256 then .ok ()
  else .error (.valueError (field ++ " must be a lowercase SHA-256 digest"))

/-- The check of `source_commit`. -/
def requireCommit (sourceCommit : PyStr) : Except TemporalRaised Unit :=
  if sourceCommit = [] then .error (.valueError "source_commit is required") else .ok ()

/-- The check of `state`. -/
def knownState (state : PyStr) : Except TemporalRaised FactState :=
  match FactState.ofName? state with
  | some t => .ok t
  | none => .error (.valueError ("unsupported temporal state: " ++ state))

/-- The world sequence of a new version. -/
def nextWorld (s : BitemporalOverlay) (validFrom : Option ℤ) (allowSameWorld : Bool) :
    Except TemporalRaised ℤ :=
  let world := validFrom.getD (s.worldSequence + 1)
  if world < s.worldSequence ∨ (world = s.worldSequence ∧ allowSameWorld = false) then
    .error (.invariantError "world_time_out_of_order" "valid_from must advance monotonically")
  else .ok world

/-- The checks of `append`, which precede every change: the state and the world sequence of the new
version. -/
def checkAppend (s : BitemporalOverlay) (canonicalId : PyStr) (a : FactArgs)
    (allowSameWorld : Bool) : Except TemporalRaised (FactState × ℤ) := do
  validateDigest "canonical_id" canonicalId
  validateDigest "source_sha256" a.sourceSha256
  validateDigest "artifact_digest" a.artifactDigest
  requireCommit a.sourceCommit
  let state ← knownState a.state
  let world ← s.nextWorld a.validFrom allowSameWorld
  return (state, world)

/-- The open version, closed by a new version in the given state; the successor is filled in once
the new version is known. -/
def close (previous : BitemporalFact) (state : FactState) (world observed : ℤ) : BitemporalFact :=
  { previous with
    validTo := some world
    invalidatedAt := some observed
    state := if state = .active then .superseded else previous.state
    reasonCode := if state = .active then some "superseded" else previous.reasonCode }

/-- The closed version with its link to the new one. -/
def link (closed fact : BitemporalFact) : BitemporalFact :=
  { closed with successor := some fact.digest }

def newFact (s : BitemporalOverlay) (canonicalId : PyStr) (a : FactArgs) (state : FactState)
    (world : ℤ) (predecessor : Option PyStr) : BitemporalFact where
  canonicalId := canonicalId
  repository := s.repository
  baseGeneration := s.baseGeneration
  overlayGeneration := s.overlayGeneration
  sourceCommit := a.sourceCommit
  sourceSha256 := a.sourceSha256
  artifactDigest := a.artifactDigest
  validFrom := world
  validTo := none
  observedAt := s.observedSequence + 1
  invalidatedAt := none
  state := state
  reasonCode := a.reasonCode
  predecessor := predecessor
  successor := none
  dependencies := a.dependencies
  provenance := a.provenance

/-- The overlay after the checks of `append`: the sequences advance, the open version is closed and
linked to the new one, and the new one is added. -/
def push (s : BitemporalOverlay) (canonicalId : PyStr) (a : FactArgs) (state : FactState)
    (world : ℤ) : BitemporalFact × BitemporalOverlay :=
  let observed := s.observedSequence + 1
  let versions := (s.facts.get? canonicalId).getD []
  let (versions, fact) := match s.current canonicalId with
    | none => (versions, s.newFact canonicalId a state world a.predecessor)
    | some previous =>
      let closed := close previous state world observed
      let fact := s.newFact canonicalId a state world (some closed.digest)
      (versions.dropLast ++ [link closed fact], fact)
  (fact, { s with
    worldSequence := world
    observedSequence := observed
    facts := s.facts.set canonicalId (versions ++ [fact]) })

/-- `append`; a call that raises leaves the overlay as it was. -/
def append (s : BitemporalOverlay) (canonicalId : PyStr) (a : FactArgs)
    (allowSameWorld : Bool := false) : Except TemporalRaised (BitemporalFact × BitemporalOverlay) := do
  let (state, world) ← s.checkAppend canonicalId a allowSameWorld
  return s.push canonicalId a state world

def tombstone (s : BitemporalOverlay) (canonicalId sourceCommit sourceSha256 reasonCode : PyStr)
    (successor : Option PyStr := none) (validFrom : Option ℤ := none)
    (allowSameWorld : Bool := false) :
    Except TemporalRaised (BitemporalFact × BitemporalOverlay) :=
  match s.current canonicalId with
  | none => .error (.invariantError "fact_not_active" "only an active fact can be tombstoned")
  | some current =>
    if current.state ≠ .active then
      .error (.invariantError "fact_not_active" "only an active fact can be tombstoned")
    else
      s.append canonicalId
        { sourceCommit, sourceSha256, artifactDigest := current.artifactDigest
          state := "tombstoned", reasonCode := some reasonCode, validFrom
          provenance := match successor with
            | some id => if id = [] then .empty else JsonObject.single "successor" (.str id) trivial
            | none => .empty }
        allowSameWorld

/-- The facts that `invalidate_dependencies` holds, sorted by canonical id. -/
def affected (s : BitemporalOverlay) (changed : List PyStr) : List BitemporalFact :=
  (s.facts.values.filterMap fun versions => do
    let last ← versions.getLast?
    let fact ← s.current last.canonicalId
    if fact.state = .active ∧ ∃ d ∈ fact.dependencies, d ∈ changed then some fact else none)
      |>.insertionSort fun f g => f.canonicalId ≤ g.canonicalId

/-- The loop of `invalidate_dependencies`: the ids held so far, and the overlay; a fact whose
`append` raises ends the loop and keeps the facts held before it. -/
def hold (sourceCommit sourceSha256 reasonCode : PyStr) :
    BitemporalOverlay → Option ℤ → List BitemporalFact →
      Except TemporalRaised (List PyStr) × BitemporalOverlay
  | s, _, [] => (.ok [], s)
  | s, nextWorld, f :: fs =>
    match s.append f.canonicalId
      { sourceCommit, sourceSha256, artifactDigest := f.artifactDigest, state := "held"
        reasonCode := some reasonCode, validFrom := nextWorld } with
    | .error x => (.error x, s)
    | .ok (_, s') =>
      let (held, s'') := hold sourceCommit sourceSha256 reasonCode s' none fs
      (held.map (f.canonicalId :: ·), s'')

def invalidateDependencies (s : BitemporalOverlay) (changedIds : List PyStr)
    (sourceCommit sourceSha256 : PyStr) (reasonCode : PyStr := "dependency_changed")
    (validFrom : Option ℤ := none) : Except TemporalRaised Invalidation × BitemporalOverlay :=
  let changed := (changedIds.filter (· ≠ [])).dedup.insertionSort (· ≤ ·)
  let (held, s') := hold sourceCommit sourceSha256 reasonCode s validFrom (s.affected changed)
  (held.map fun ids => ⟨if ids = [] then "no_op" else "invalidated", changed, ids, reasonCode⟩, s')

/-- `rename`: the new id is appended first, then the old one is tombstoned at the same world
sequence. -/
def rename (s : BitemporalOverlay) (oldId newId sourceCommit sourceSha256 artifactDigest : PyStr) :
    Except TemporalRaised BitemporalFact × BitemporalOverlay :=
  match s.current oldId with
  | none => (.error (.invariantError "fact_not_active" "only an active fact can be renamed"), s)
  | some current =>
    if current.state ≠ .active then
      (.error (.invariantError "fact_not_active" "only an active fact can be renamed"), s)
    else match s.append newId
      { sourceCommit, sourceSha256, artifactDigest, predecessor := some current.digest } with
    | .error x => (.error x, s)
    | .ok (replacement, s') =>
      match s'.tombstone oldId sourceCommit sourceSha256 "renamed" (some replacement.digest)
        (some s'.worldSequence) true with
      | .error x => (.error x, s')
      | .ok (_, s'') => (.ok replacement, s'')

/-! ## Reading -/

/-- Whether `as_of` considers a version. -/
def isValidAt (world : ℤ) (includeTombstones : Bool) (f : BitemporalFact) : Bool :=
  f.validFrom ≤ world && (match f.validTo with
    | none => true
    | some validTo => world < validTo) && (includeTombstones || f.state ≠ .tombstoned)

/-- The version of one fact that `as_of` returns. -/
def candidate (world : ℤ) (includeTombstones : Bool) (versions : List BitemporalFact) :
    Option BitemporalFact :=
  (versions.filter (isValidAt world includeTombstones)).getLast?

def asOf (s : BitemporalOverlay) (world : ℤ) (generation : Option PyStr := none)
    (includeTombstones : Bool := false) : Except TemporalRaised (List BitemporalFact) :=
  if world < 1 then .error (.invariantError "invalid_as_of" "as_of sequence must be positive")
  else if generation ≠ none ∧ generation ≠ some s.baseGeneration ∧
      generation ≠ s.overlayGeneration then
    .error (.invariantError "stale_generation" "as_of generation is outside this overlay")
  else .ok ((s.facts.values.filterMap (candidate world includeTombstones)).insertionSort
    fun f g => f.canonicalId ≤ g.canonicalId)

/-! ## Runs -/

/-- The calls that change an overlay. -/
inductive Call
  | append (canonicalId : PyStr) (args : FactArgs)
  | tombstone (canonicalId sourceCommit sourceSha256 reasonCode : PyStr) (successor : Option PyStr)
      (validFrom : Option ℤ)
  | rename (oldId newId sourceCommit sourceSha256 artifactDigest : PyStr)
  | invalidateDependencies (changedIds : List PyStr) (sourceCommit sourceSha256 reasonCode : PyStr)
      (validFrom : Option ℤ)

/-- The overlay after a call that returns or raises without a change. -/
def settle {α : Type} (s : BitemporalOverlay) (r : Except TemporalRaised (α × BitemporalOverlay)) :
    BitemporalOverlay :=
  match r with
  | .ok (_, s') => s'
  | .error _ => s

/-- The overlay after a call, whether it returned or raised. -/
def step (s : BitemporalOverlay) : Call → BitemporalOverlay
  | .append id args => s.settle (s.append id args)
  | .tombstone id commit sha reason successor validFrom =>
    s.settle (s.tombstone id commit sha reason successor validFrom)
  | .rename old new commit sha digest => (s.rename old new commit sha digest).2
  | .invalidateDependencies changed commit sha reason validFrom =>
    (s.invalidateDependencies changed commit sha reason validFrom).2

end BitemporalOverlay

end SimplicioFast
