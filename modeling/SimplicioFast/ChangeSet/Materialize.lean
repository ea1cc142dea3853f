import SimplicioFast.ChangeSet.Journal
import SimplicioFast.ChangeSet.Validate
import SimplicioFast.Lib.Literals
import SimplicioFast.Lib.Sha256Eval

/-!
# Materializing a change set

`materialize` asks the adapter to carry out a change set and records the outcome in the journal;
`reconcile_unknown_effect` looks at the tree after an adapter call whose outcome is unknown.

The adapter and the semantic refresh are outside the program.  A call of `materialize` is given with
what they do in it: the tree before, the adapter's answer, the tree that the adapter leaves, and the
answer of the refresh.
-/

namespace SimplicioFast

/-- The entry `status` of a receipt. -/
inductive ReceiptStatus
  | idempotent
  | locked
  | applied
  | unknown
  | rejected
  | reconciled
deriving DecidableEq

/-- A receipt; the entries that a receipt leaves out are `none`. -/
structure Receipt where
  status : ReceiptStatus
  changesetId : PyStr
  reasonCode : Option PyStr := none
  journal : Option JournalEvent := none
  validation : Option Validation := none
  adapter : Option Json := none
  refresh : Option Json := none
  evidence : Option Json := none
  journalError : Option PyStr := none
  reconcileRequired : Bool := false
  reconciliation : Option Json := none
  retryAllowed : Option Json := none

/-- What a call returns or raises, the journal it leaves, whether it called the adapter, and whether
it has recorded what it found in the tree after an unknown outcome. -/
structure Effect where
  receipt : Except ChangeSetRaised Receipt
  journal : BinaryChangeJournal
  adapterCalled : Bool := false
  established : Bool := false

/-- A call of `materialize` with the behaviour of the adapter and of the refresh in it. -/
structure MaterializeCall where
  before : Tree
  outcome : Except ChangeSetRaised Json
  after : Tree
  refresh : Except ChangeSetRaised Json

namespace Validation

def toJson (v : Validation) : Json :=
  .obj [("schema", .str "simplicio.fast.binary-changeset-validation/v1"),
    ("changeset_id", .str v.changesetId), ("status", .str "valid"),
    ("operations", .arr (v.operations.map fun s => .obj [("path", .str s.1),
      ("status", .str (if s.2 = .ready then "ready" else "idempotent"))])),
    ("idempotent", .bool v.idempotent)]

end Validation

namespace ChangeSet

variable (codecs : Codecs) (c : BinaryChangeSet) (j : BinaryChangeJournal) (id : PyStr)

def errorEvidence (reasonCode message : PyStr) : Json :=
  .obj [("reason_code", .str reasonCode), ("message", .str message)]

/-- `{"status": "not-needed"}`. -/
def refreshNotNeeded : Json := .obj [("status", .str "not-needed")]

/-- The `except` clauses of `materialize`; the journal is the one at the time of the exception. -/
def recordFailure (adapterCalled : Bool) (x : ChangeSetRaised) : Effect :=
  match x with
  | .unknownEffect reasonCode =>
    let evidence := errorEvidence reasonCode reasonCode
    match j.append codecs c .unknown evidence with
    | .ok (event, j) =>
      { receipt := .ok { status := .locked, changesetId := id, reasonCode := some "unknown_effect"
                         evidence := some evidence, journal := some event
                         reconcileRequired := true }
        journal := j, adapterCalled }
    | .error y => match y.describe? with
      | some (reason, _) =>
        { receipt := .ok { status := .unknown, changesetId := id
                           reasonCode := some "unknown_effect", evidence := some evidence
                           journalError := some reason, reconcileRequired := true }
          journal := j, adapterCalled }
      | none => { receipt := .error y, journal := j, adapterCalled }
  | x => match x.describe? with
    | none => { receipt := .error x, journal := j, adapterCalled }
    | some (reasonCode, message) =>
      let evidence := errorEvidence reasonCode message
      let receipt : Receipt :=
        { status := .rejected, changesetId := id, reasonCode := some reasonCode
          evidence := some evidence }
      match j.append codecs c .rejected evidence with
      | .ok (_, j) => { receipt := .ok receipt, journal := j, adapterCalled }
      | .error y => match y.describe? with
        | some _ => { receipt := .ok receipt, journal := j, adapterCalled }
        | none => { receipt := .error y, journal := j, adapterCalled }

/-- `materialize` after the adapter has answered `applied`. -/
def finish (m : MaterializeCall) (applied : Json) : Effect :=
  match c.validate codecs m.after with
  | .error x => recordFailure codecs c j id true x
  | .ok after => match m.refresh with
    | .error x => recordFailure codecs c j id true x
    | .ok refresh =>
      let evidence : Json :=
        .obj [("adapter", applied), ("validation", after.toJson), ("refresh", refresh)]
      match j.append codecs c .applied evidence with
      | .error x => recordFailure codecs c j id true x
      | .ok (event, j) =>
        { receipt := .ok { status := .applied, changesetId := id, validation := some after
                           adapter := some applied, refresh := some refresh
                           journal := some event }
          journal := j, adapterCalled := true }

/-- `materialize` once the journal allows an attempt. -/
def attempt (m : MaterializeCall) : Effect :=
  match c.validate codecs m.before with
  | .error x => recordFailure codecs c j id false x
  | .ok validation =>
    let evidence : Json := .obj [("validation", validation.toJson)]
    match j.append codecs c .sealed evidence with
    | .error x => recordFailure codecs c j id false x
    | .ok (_, j) =>
      if validation.idempotent then
        match j.append codecs c .idempotent evidence with
        | .error x => recordFailure codecs c j id false x
        | .ok (event, j) =>
          { receipt := .ok { status := .idempotent, changesetId := id, journal := some event
                             validation := some validation, refresh := some refreshNotNeeded }
            journal := j }
      else match m.outcome with
        | .error x => recordFailure codecs c j id true x
        | .ok applied => finish codecs c j id m applied

/-- `materialize`.  Every path through the source computes the change-set id, so that a change set
without one raises, before the adapter is called. -/
def materialize (m : MaterializeCall) : Effect :=
  match c.changesetId codecs with
  | .error x => { receipt := .error x, journal := j }
  | .ok id => match j.last id with
    | none => attempt codecs c j id m
    | some previous => match previous.state with
      | .applied | .idempotent =>
        { receipt := .ok { status := .idempotent, changesetId := id, journal := some previous
                           refresh := some refreshNotNeeded }
          journal := j }
      | .unknown | .reconcileAmbiguous =>
        { receipt := .ok { status := .locked, changesetId := id, reasonCode := some "unknown_effect"
                           journal := some previous, reconcileRequired := true }
          journal := j }
      | .sealed | .rejected | .reconciled => attempt codecs c j id m

def reconcileEvidence (reconciliation : PyStr) (previous : JournalEvent) (validation : Validation)
    (retryAllowed : Bool) : Json :=
  .obj [("reconciliation", .str reconciliation),
    ("unknown_record_hash", .str previous.recordHash), ("validation", validation.toJson),
    ("retry_allowed", .bool retryAllowed)]

/-- `reconcile_unknown_effect` after the tree has been validated. -/
def recordReconciliation (previous : JournalEvent) (validation : Validation) : Effect :=
  let reconciliation : PyStr := if validation.idempotent then "already_applied" else "not_applied"
  let retryAllowed := !validation.idempotent
  let state : JournalState := if validation.idempotent then .applied else .reconciled
  match j.append codecs c state
    (reconcileEvidence reconciliation previous validation retryAllowed) with
  | .error x => { receipt := .error x, journal := j }
  | .ok (event, j) =>
    { receipt := .ok { status := .reconciled, changesetId := id
                       reconciliation := some (.str reconciliation), journal := some event
                       retryAllowed := some (.bool retryAllowed) }
      journal := j, established := true }

/-- `reconcile_unknown_effect` of an unknown outcome. -/
def reconcileTree (tree : Tree) (previous : JournalEvent) : Effect :=
  match c.validate codecs tree with
  | .ok validation => recordReconciliation codecs c j id previous validation
  | .error x => match x.describe? with
    | none => { receipt := .error x, journal := j }
    | some (reasonCode, message) =>
      { receipt := .ok { status := .locked, changesetId := id, reasonCode := some "unknown_effect"
                         evidence := some (.obj [("reconciliation", .str "ambiguous"),
                           ("reason_code", .str reasonCode), ("message", .str message),
                           ("retry_allowed", .bool false)])
                         journal := some previous, reconcileRequired := true }
        journal := j }

def reconcileUnknownEffect (tree : Tree) : Effect :=
  match c.changesetId codecs with
  | .error x => { receipt := .error x, journal := j }
  | .ok id => match j.last id with
    | none =>
      { receipt := .ok { status := .rejected, changesetId := id
                         reasonCode := some "unknown_effect_missing" }
        journal := j }
    | some previous => match previous.state with
      | .unknown => reconcileTree codecs c j id tree previous
      | .reconciled =>
        { receipt := .ok { status := .reconciled, changesetId := id
                           reconciliation := previous.evidence.get? "reconciliation"
                           journal := some previous
                           retryAllowed :=
                             some ((previous.evidence.get? "retry_allowed").getD (.bool false)) }
          journal := j }
      | _ =>
        { receipt := .ok { status := .rejected, changesetId := id
                           reasonCode := some "unknown_effect_missing" }
          journal := j }

end ChangeSet

/-! ## A small change set -/

def Tree.bare (root : PyStr) : Tree := ⟨root, fun _ => .ok (), fun _ => .ok none⟩

/-- The creation of the empty file `a`. -/
def createEmptyFile : ChangeOperation where
  op := .create
  path := "a"
  contentB64 := some ""
  afterSha256 := some "e3b0c44298fc1c149afbf4c8996fb92427ae41e4649b934ca495991b7852b855"

def BinaryChangeSet.small (operations : List ChangeOperation)
    (accepted : ∀ o ∈ operations, o.Accepted) (ne_nil : operations ≠ []) : BinaryChangeSet where
  repository := "/r"
  baseGeneration := "g1"
  overlayGeneration := "g2"
  attempt := "1"
  worktreeId := "w"
  leaseId := "l"
  fencingToken := "f"
  allowedPaths := operations.flatMap ChangeOperation.paths
  operations := operations
  verificationCommands := ["test"]
  accepted := accepted
  operations_ne_nil := ne_nil

/-- The change set that creates the empty file `a`. -/
def createEmpty : BinaryChangeSet :=
  .small [createEmptyFile] (List.forall_mem_singleton.2 ⟨fun _ => rfl, fun _ => ⟨rfl, rfl⟩,
    fun h => (by cases h), fun h => (by cases h), fun h => (by cases h)⟩) (List.cons_ne_nil _ _)

/-- The empty journal that belongs to the small change set. -/
def BinaryChangeJournal.bare : BinaryChangeJournal := ⟨"w", "l", "f", []⟩

theorem isOk_changesetId_createEmpty : (createEmpty.changesetId utf8Codecs).isOk = true := by decide +kernel

theorem isOk_encode_createEmpty : (createEmpty.encode utf8Codecs).isOk = true := by
  simp (disch := decide +kernel) only [BinaryChangeSet.encode, BinaryChangeSet.toDict, BinaryChangeSet.changesetId,
    BinaryChangeSet.identity, BinaryChangeSet.identityFields, createEmpty, BinaryChangeSet.small, createEmptyFile,
    ChangeOperation.toDict, List.mapM_cons, List.mapM_nil, ChangeSet.SCHEMA, ChangeSet.sha256, Sha256.hexdigest_eq,
    Literals.toList_eq_asciiChars]
  decide +kernel

end SimplicioFast
