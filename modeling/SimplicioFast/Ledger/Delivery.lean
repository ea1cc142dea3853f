import SimplicioFast.Lib.JsonParse
import SimplicioFast.Lib.Machine
import SimplicioFast.Lib.Sha256

/-!
# The delivery ledger

`DeliveryLedger` keeps a hash chain of events (`events`), a table of the events by their event id
(`byId`) and the winner fence (`winner`), a side table that names the promoted candidate of each
task and attempt.  `append_event` is idempotent in the event id; `promote_winner` writes the fence
and then appends, in two separate steps; `seal_delivery` reads the fence.

Calls happen one after the other.  A call that raises is a call as well: it returns the exception
together with the ledger that it leaves behind.
-/

namespace SimplicioFast

/-- The exceptions that a ledger method raises. -/
inductive LedgerRaised
  | ledgerError (reasonCode message : PyStr)
  | valueError (message : PyStr)
  | unicodeEncodeError
deriving DecidableEq

/-- `EVENT_TYPES`. -/
inductive EventType
  | taskAccepted
  | engineSelected
  | mapperContextPinned
  | fastContextResolved
  | understandingCompiled
  | planCompiled
  | changesetAccepted
  | effectAuthorized
  | localGuardAccepted
  | editApplied
  | testEvidence
  | invalidationApplied
  | snapshotRefreshed
  | candidateRejected
  | winnerPromoted
  | deliverySealed
  | held
  | rollback
deriving DecidableEq

namespace EventType

/-- The event type as the source spells it. -/
def name : EventType → PyStr
  | taskAccepted => "TASK_ACCEPTED"
  | engineSelected => "ENGINE_SELECTED"
  | mapperContextPinned => "MAPPER_CONTEXT_PINNED"
  | fastContextResolved => "FAST_CONTEXT_RESOLVED"
  | understandingCompiled => "UNDERSTANDING_COMPILED"
  | planCompiled => "PLAN_COMPILED"
  | changesetAccepted => "CHANGESET_ACCEPTED"
  | effectAuthorized => "EFFECT_AUTHORIZED"
  | localGuardAccepted => "LOCAL_GUARD_ACCEPTED"
  | editApplied => "EDIT_APPLIED"
  | testEvidence => "TEST_EVIDENCE"
  | invalidationApplied => "INVALIDATION_APPLIED"
  | snapshotRefreshed => "SNAPSHOT_REFRESHED"
  | candidateRejected => "CANDIDATE_REJECTED"
  | winnerPromoted => "WINNER_PROMOTED"
  | deliverySealed => "DELIVERY_SEALED"
  | held => "HELD"
  | rollback => "ROLLBACK"

def all : List EventType :=
  [taskAccepted, engineSelected, mapperContextPinned, fastContextResolved, understandingCompiled,
    planCompiled, changesetAccepted, effectAuthorized, localGuardAccepted, editApplied,
    testEvidence, invalidationApplied, snapshotRefreshed, candidateRejected, winnerPromoted,
    deliverySealed, held, rollback]

/-- The event type with the given name. -/
def ofName? (s : PyStr) : Option EventType := all.find? fun t => t.name = s

theorem mem_all (t : EventType) : t ∈ all := by
  cases t <;> decide

theorem ofName?_name (t : EventType) : ofName? t.name = some t := by
  have found : ∀ t ∈ all, ofName? t.name = some t := by decide +kernel
  exact found t t.mem_all

theorem name_injective : Function.Injective name := by
  intro a b h
  have found := ofName?_name a
  rw [h, ofName?_name b] at found
  exact (Option.some.inj found).symm

theorem name_of_ofName? {s : PyStr} {t : EventType} (h : ofName? s = some t) : t.name = s := by
  simpa using List.find?_some h

end EventType

/-- The empty hash before the first event. -/
def ZERO_HASH : PyStr := PyStr.ofChars (List.replicate 64 '0')

/-- The schema identifier of the ledger. -/
def LEDGER_SCHEMA : PyStr := "simplicio.fast.delivery-ledger/v1"

/-- An event of the chain. -/
structure LedgerEvent where
  sequence : ℕ
  eventType : EventType
  eventId : PyStr
  taskId : PyStr
  attemptId : PyStr
  candidateId : Option PyStr
  repository : PyStr
  sourceCommit : Option PyStr
  baseGeneration : Option PyStr
  overlayGeneration : Option PyStr
  producer : PyStr
  artifactHandles : List PyStr
  artifactDigests : List PyStr
  payloadDigest : Option PyStr
  prevEventHash : PyStr
  eventHash : PyStr
  metadata : JsonObject

namespace LedgerEvent

/-- The entries of `material`. -/
def materialFields (e : LedgerEvent) : List (PyStr × Json) :=
  [("schema", .str LEDGER_SCHEMA), ("sequence", .int e.sequence),
    ("event_type", .str e.eventType.name), ("event_id", .str e.eventId),
    ("task_id", .str e.taskId), ("attempt_id", .str e.attemptId),
    ("candidate_id", Json.optStr e.candidateId), ("repository", .str e.repository),
    ("source_commit", Json.optStr e.sourceCommit), ("base_generation", Json.optStr e.baseGeneration),
    ("overlay_generation", Json.optStr e.overlayGeneration), ("producer", .str e.producer),
    ("artifact_handles", .arr (e.artifactHandles.map .str)),
    ("artifact_digests", .arr (e.artifactDigests.map .str)),
    ("payload_digest", Json.optStr e.payloadDigest), ("prev_event_hash", .str e.prevEventHash),
    ("metadata", e.metadata.toJson)]

def material (e : LedgerEvent) : Json := .obj e.materialFields

def record (e : LedgerEvent) : Json :=
  .obj (e.materialFields ++ [(("event_hash" : PyStr), Json.str e.eventHash)])

end LedgerEvent

/-! ## The secret scan -/

/-- Whether the character matches the lower-case letter of a pattern compiled with `(?i)`; besides
the two cases of the letter these are the non-ASCII characters that Python folds to it. -/
def matchesLetter (p : Char) : PyChar → Bool
  | .scalar c => c.toLower = p || (p = 'i' && (c = 'İ' || c = 'ı')) || (p = 's' && c = 'ſ') ||
      (p = 'k' && c = '\u212a')
  | .surrogate _ => false

/-- The text after a prefix that matches the letters, case aside. -/
def stripLetters : List Char → PyStr → Option PyStr
  | [], s => some s
  | _ :: _, [] => none
  | p :: ps, c :: s => if matchesLetter p c then stripLetters ps s else none

/-- The text after an optional `_` or `-`. -/
def stripSeparator : PyStr → PyStr
  | .scalar '_' :: s => s
  | .scalar '-' :: s => s
  | s => s

/-- Whether `_SECRET_KEY` matches at the front of the text. -/
def secretKeyHere (s : PyStr) : Bool :=
  (stripLetters "password".toList s).isSome || (stripLetters "secret".toList s).isSome ||
    (stripLetters "token".toList s).isSome ||
    ((stripLetters "api".toList s).bind fun r =>
      stripLetters "key".toList (stripSeparator r)).isSome ||
    ((stripLetters "private".toList s).bind fun r =>
      stripLetters "key".toList (stripSeparator r)).isSome

/-- `_SECRET_KEY.search`. -/
def secretKeySearch (s : PyStr) : Bool := s.tails.any secretKeyHere

def secretKeyError : LedgerRaised :=
  .ledgerError "secret_redaction" "secret-like metadata keys are not allowed"

def secretValueError : LedgerRaised :=
  .ledgerError "secret_redaction" "secret-like metadata values are not allowed"

mutual

/-- The inner function `walk` of `_check_metadata`. -/
def walk (key : PyStr) : Json → Except LedgerRaised Unit
  | .obj fs => if secretKeySearch key then .error secretKeyError else walkFields fs
  | .arr vs => if secretKeySearch key then .error secretKeyError else walkItems key vs
  | .str s => if secretKeySearch key then .error secretKeyError
      else if secretKeySearch s then .error secretValueError else .ok ()
  | _ => if secretKeySearch key then .error secretKeyError else .ok ()

/-- `walk` over the items of a list, under the key of the list. -/
def walkItems (key : PyStr) : List Json → Except LedgerRaised Unit
  | [] => .ok ()
  | v :: vs => do
    walk key v
    walkItems key vs

/-- `walk` of the value of a field, under its key. -/
def walkField : PyStr × Json → Except LedgerRaised Unit
  | (k, v) => walk k v

/-- `walk` over the fields of a dictionary. -/
def walkFields : List (PyStr × Json) → Except LedgerRaised Unit
  | [] => .ok ()
  | f :: fs => do
    walkField f
    walkFields fs

end

/-! ## Appending -/

def validateHash (field value : PyStr) : Except LedgerRaised Unit :=
  if value.isSha256 then .ok ()
  else .error (.ledgerError "invalid_digest" (field ++ " must be a lowercase SHA-256 digest"))

def canonical (v : Json) : Except LedgerRaised Bytes :=
  match (v.dumps false).encode with
  | some b => .ok b
  | none => .error .unicodeEncodeError

/-- The keyword arguments of `append_event`. -/
structure EventArgs where
  taskId : PyStr
  attemptId : PyStr
  producer : PyStr
  candidateId : Option PyStr := none
  sourceCommit : Option PyStr := none
  baseGeneration : Option PyStr := none
  overlayGeneration : Option PyStr := none
  artifactHandles : List PyStr := []
  artifactDigests : List PyStr := []
  payloadDigest : Option PyStr := none
  metadata : JsonObject := .empty

/-- What the event id is the digest of. -/
def idMaterial (t : EventType) (taskId attemptId : PyStr) (candidateId : Option PyStr)
    (metadata : JsonObject) : Json :=
  .obj [("schema", .str LEDGER_SCHEMA), ("event_type", .str t.name), ("task_id", .str taskId),
    ("attempt_id", .str attemptId), ("candidate_id", Json.optStr candidateId),
    ("metadata", metadata.toJson)]

/-- `_event_id`. -/
def eventIdOf (t : EventType) (a : EventArgs) : Except LedgerRaised PyStr := do
  let b ← canonical (idMaterial t a.taskId a.attemptId a.candidateId a.metadata)
  return PyStr.ofChars (Sha256.hexdigest b)

/-- `_event_hash`. -/
def eventHashOf (material : Json) : Except LedgerRaised PyStr := do
  let b ← canonical material
  return PyStr.ofChars (Sha256.hexdigest
    (PyStr.asciiBytes "simplicio.fast.delivery-ledger:event:v1\x00" ++ b))

def knownType (eventType : PyStr) : Except LedgerRaised EventType :=
  match EventType.ofName? eventType with
  | some t => .ok t
  | none => .error (.ledgerError "unknown_event_type" ("unsupported event type: " ++ eventType))

/-- The check of the arguments that may not be empty. -/
def requireArgs (a : EventArgs) : Except LedgerRaised Unit :=
  if a.taskId = [] ∨ a.attemptId = [] ∨ a.producer = [] then
    .error (.valueError "task_id, attempt_id and producer are required")
  else .ok ()

/-- The check of `payload_digest`, which may be `None`. -/
def checkPayloadDigest : Option PyStr → Except LedgerRaised Unit
  | none => .ok ()
  | some d => validateHash "payload_digest" d

/-- The checks that `append_event` makes before it computes the event id. -/
def checkArgs (eventType : PyStr) (a : EventArgs) : Except LedgerRaised EventType := do
  let t ← knownType eventType
  requireArgs a
  walk [] a.metadata.toJson
  a.artifactDigests.forM (validateHash "artifact_digest")
  checkPayloadDigest a.payloadDigest
  return t

/-- The ledger. -/
structure DeliveryLedger where
  repository : PyStr
  events : List LedgerEvent
  byId : Dict PyStr LedgerEvent
  winner : Dict (PyStr × PyStr) PyStr

namespace DeliveryLedger

/-- `__init__`. -/
def new (repository : PyStr) : Except LedgerRaised DeliveryLedger :=
  if repository = [] then .error (.valueError "repository is required")
  else .ok ⟨repository, [], .empty, .empty⟩

/-- The event that a call adds, before its hash is filled in. -/
def draft (s : DeliveryLedger) (t : EventType) (eventId : PyStr) (a : EventArgs) : LedgerEvent where
  sequence := s.events.length
  eventType := t
  eventId := eventId
  taskId := a.taskId
  attemptId := a.attemptId
  candidateId := a.candidateId
  repository := s.repository
  sourceCommit := a.sourceCommit
  baseGeneration := a.baseGeneration
  overlayGeneration := a.overlayGeneration
  producer := a.producer
  artifactHandles := a.artifactHandles
  artifactDigests := a.artifactDigests
  payloadDigest := a.payloadDigest
  prevEventHash := match s.events.getLast? with
    | some e => e.eventHash
    | none => ZERO_HASH
  eventHash := []
  metadata := a.metadata

def push (s : DeliveryLedger) (e : LedgerEvent) : DeliveryLedger :=
  { s with events := s.events ++ [e], byId := s.byId.set e.eventId e }

/-- `append_event`; a call that raises leaves the ledger as it was. -/
def appendEvent (s : DeliveryLedger) (eventType : PyStr) (a : EventArgs) :
    Except LedgerRaised (LedgerEvent × DeliveryLedger) := do
  let t ← checkArgs eventType a
  let eventId ← eventIdOf t a
  match s.byId.get? eventId with
  | some existing =>
    if existing.eventType ≠ t ∨ existing.metadata.toJson.pyEq a.metadata.toJson = false then
      .error (.ledgerError "idempotency_conflict" "event id was reused with different event data")
    else .ok (existing, s)
  | none =>
    let event := s.draft t eventId a
    let eventHash ← eventHashOf event.material
    let event := { event with eventHash }
    .ok (event, s.push event)

/-- A call that cannot leave a half-made change behind. -/
def settle (s : DeliveryLedger) (r : Except LedgerRaised (LedgerEvent × DeliveryLedger)) :
    Except LedgerRaised LedgerEvent × DeliveryLedger :=
  match r with
  | .ok (e, s') => (.ok e, s')
  | .error x => (.error x, s)

/-- The arguments with which `promote_winner` calls `append_event`. -/
def promotionArgs (taskId attemptId candidateId producer : PyStr) : EventArgs :=
  { taskId, attemptId, producer, candidateId := some candidateId }

/-- The ledger after `self._winner[key] = candidate_id`. -/
def setWinner (s : DeliveryLedger) (taskId attemptId candidateId : PyStr) : DeliveryLedger :=
  { s with winner := s.winner.set (taskId, attemptId) candidateId }

/-- `promote_winner`: the fence is written first, and stays when `append_event` raises. -/
def promoteWinner (s : DeliveryLedger) (taskId attemptId candidateId producer : PyStr) :
    Except LedgerRaised LedgerEvent × DeliveryLedger :=
  if ∃ winner ∈ s.winner.get? (taskId, attemptId), winner ≠ candidateId then
    (.error (.ledgerError "winner_fence" "a different candidate is already promoted"), s)
  else
    let s := s.setWinner taskId attemptId candidateId
    s.settle (s.appendEvent "WINNER_PROMOTED"
      (promotionArgs taskId attemptId candidateId producer))

def sealDelivery (s : DeliveryLedger) (taskId attemptId producer : PyStr) :
    Except LedgerRaised LedgerEvent × DeliveryLedger :=
  match s.winner.get? (taskId, attemptId) with
  | none => (.error (.ledgerError "winner_required" "delivery requires a promoted winner"), s)
  | some winner => s.settle (s.appendEvent "DELIVERY_SEALED"
      { taskId, attemptId, producer, candidateId := some winner })

/-! ## Reading the chain -/

/-- The sequence numbers that `verify_all` reports, for the events from position `sequence` on. -/
def invalidFrom (sequence : ℕ) (previous : PyStr) : List LedgerEvent → List ℕ
  | [] => []
  | e :: es =>
    (if e.sequence ≠ sequence ∨ e.prevEventHash ≠ previous ∨
        eventHashOf e.material ≠ .ok e.eventHash then [sequence] else []) ++
      invalidFrom (sequence + 1) e.eventHash es

/-- `invalid_sequences` of `verify_all`. -/
def invalidSequences (s : DeliveryLedger) : List ℕ := invalidFrom 0 ZERO_HASH s.events

def lookupAttempt (s : DeliveryLedger) (taskId attemptId : PyStr) : List LedgerEvent :=
  s.events.filter fun e => e.taskId = taskId && e.attemptId = attemptId

/-! ## Runs -/

/-- The calls that change a ledger. -/
inductive Call
  | appendEvent (eventType : PyStr) (args : EventArgs)
  | promoteWinner (taskId attemptId candidateId producer : PyStr)
  | sealDelivery (taskId attemptId producer : PyStr)

/-- What a call returns or raises, and the ledger that it leaves behind. -/
def perform (s : DeliveryLedger) : Call → Except LedgerRaised LedgerEvent × DeliveryLedger
  | .appendEvent eventType args => s.settle (s.appendEvent eventType args)
  | .promoteWinner t a c p => s.promoteWinner t a c p
  | .sealDelivery t a p => s.sealDelivery t a p

/-- The ledger after a call, whether it returned or raised. -/
def step (s : DeliveryLedger) (call : Call) : DeliveryLedger := (s.perform call).2

end DeliveryLedger

end SimplicioFast
