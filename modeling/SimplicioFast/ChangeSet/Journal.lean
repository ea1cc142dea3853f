import SimplicioFast.ChangeSet.Basic

/-!
# The change-set journal

`BinaryChangeJournal` records the states of change sets in a chained log.  `append` is idempotent per
change set and state: a state that the log holds already for the change set is not recorded again.
The log is given by its events; every file that `append` has written reads back as them.
-/

namespace SimplicioFast

/-- The states that a journal records. -/
inductive JournalState
  | sealed
  | applied
  | idempotent
  | unknown
  | rejected
  | reconciled
  | reconcileAmbiguous
deriving DecidableEq

namespace JournalState

def name : JournalState → PyStr
  | sealed => "sealed"
  | applied => "applied"
  | idempotent => "idempotent"
  | unknown => "unknown"
  | rejected => "rejected"
  | reconciled => "reconciled"
  | reconcileAmbiguous => "reconcile_ambiguous"

end JournalState

/-- A record of the journal. -/
structure JournalEvent where
  sequence : ℕ
  changesetId : PyStr
  binarySha256 : PyStr
  worktreeId : PyStr
  leaseId : PyStr
  fencingToken : PyStr
  state : JournalState
  prevHash : PyStr
  evidence : Json
  recordHash : PyStr

namespace JournalEvent

/-- What the record hash covers, besides the hash before it. -/
def material (e : JournalEvent) : Json :=
  .obj [("schema", .str "simplicio.fast.binary-changeset-journal/v1"),
    ("sequence", .int e.sequence), ("changeset_id", .str e.changesetId),
    ("binary_sha256", .str e.binarySha256), ("worktree_id", .str e.worktreeId),
    ("lease_id", .str e.leaseId), ("fencing_token", .str e.fencingToken),
    ("state", .str e.state.name), ("prev_hash", .str e.prevHash), ("evidence", e.evidence)]

/-- Whether the event records the state for the change set. -/
def Records (e : JournalEvent) (changesetId : PyStr) (state : JournalState) : Prop :=
  e.changesetId = changesetId ∧ e.state = state

instance (e : JournalEvent) (changesetId : PyStr) (state : JournalState) :
    Decidable (e.Records changesetId state) := instDecidableAnd

end JournalEvent

/-- A journal with its authority. -/
structure BinaryChangeJournal where
  worktreeId : PyStr
  leaseId : PyStr
  fencingToken : PyStr
  events : List JournalEvent

namespace BinaryChangeJournal

open ChangeSet

variable {codecs : Codecs} {c : BinaryChangeSet} {j j' : BinaryChangeJournal} {id : PyStr}
  {state : JournalState} {evidence : Json} {e : JournalEvent}

/-- The checks of `append` against the authority of the journal. -/
def checkAuthority (j : BinaryChangeJournal) (c : BinaryChangeSet) : Except ChangeSetRaised Unit :=
  if c.worktreeId ≠ j.worktreeId then .error (.reason "cross_worktree")
  else if c.leaseId ≠ j.leaseId then .error (.reason "lease_mismatch")
  else if c.fencingToken ≠ j.fencingToken then .error (.reason "fence_mismatch")
  else .ok ()

def lastHash (j : BinaryChangeJournal) : PyStr :=
  match j.events.getLast? with
  | some e => e.recordHash
  | none => PyStr.ofChars (List.replicate 64 '0')

/-- A new record, before its hash is filled in. -/
def draft (j : BinaryChangeJournal) (id binarySha256 : PyStr) (state : JournalState)
    (evidence : Json) : JournalEvent where
  sequence := j.events.length + 1
  changesetId := id
  binarySha256 := binarySha256
  worktreeId := j.worktreeId
  leaseId := j.leaseId
  fencingToken := j.fencingToken
  state := state
  prevHash := j.lastHash
  evidence := evidence
  recordHash := []

/-- The record that `append` adds. -/
def newEvent (codecs : Codecs) (j : BinaryChangeJournal) (c : BinaryChangeSet) (id : PyStr)
    (state : JournalState) (evidence : Json) : Except ChangeSetRaised JournalEvent := do
  let binary ← c.encode codecs
  let event := j.draft id (sha256 binary) state evidence
  let material ← ChangeSet.canonical event.material
  return { event with recordHash := sha256 (PyStr.encodeAscii j.lastHash ++ material) }

def push (j : BinaryChangeJournal) (e : JournalEvent) : BinaryChangeJournal :=
  { j with events := j.events ++ [e] }

def append (codecs : Codecs) (j : BinaryChangeJournal) (c : BinaryChangeSet) (state : JournalState)
    (evidence : Json) : Except ChangeSetRaised (JournalEvent × BinaryChangeJournal) := do
  j.checkAuthority c
  let id ← c.changesetId codecs
  match j.events.find? fun e => e.Records id state with
  | some e => .ok (e, j)
  | none => do
    let e ← j.newEvent codecs c id state evidence
    return (e, j.push e)

def last (j : BinaryChangeJournal) (id : PyStr) : Option JournalEvent :=
  j.events.reverse.find? fun e => e.changesetId = id

/-- The state that the journal holds last for a change set. -/
def lastState (j : BinaryChangeJournal) (id : PyStr) : Option JournalState :=
  (j.last id).map JournalEvent.state

/-- The journal belongs to the worktree, lease and fencing token of the change set. -/
def Bound (j : BinaryChangeJournal) (c : BinaryChangeSet) : Prop :=
  c.worktreeId = j.worktreeId ∧ c.leaseId = j.leaseId ∧ c.fencingToken = j.fencingToken

theorem checkAuthority_eq_ok_iff : j.checkAuthority c = .ok () ↔ j.Bound c := by
  unfold checkAuthority Bound
  split_ifs with h₁ h₂ h₃
  · simp [h₁]
  · simp [h₂]
  · simp [h₃]
  · rw [not_not] at h₁ h₂ h₃
    simp [h₁, h₂, h₃]

theorem newEvent_eq_ok (h : j.newEvent codecs c id state evidence = .ok e) :
    e.Records id state ∧ ∃ b, c.encode codecs = .ok b := by
  obtain ⟨b, hb, h⟩ := bind_ok.1 h
  obtain ⟨material, -, h⟩ := bind_ok.1 h
  cases h
  exact ⟨⟨rfl, rfl⟩, b, hb⟩

/-- A call of `append` that returns either finds the state recorded or records it at the end. -/
theorem append_eq_ok (h : j.append codecs c state evidence = .ok (e, j')) :
    j.Bound c ∧ ∃ id, c.changesetId codecs = .ok id ∧ e.Records id state ∧
      ((e ∈ j.events ∧ j' = j) ∨
        ((∀ e' ∈ j.events, ¬ e'.Records id state) ∧ (∃ b, c.encode codecs = .ok b) ∧
          j' = j.push e)) := by
  obtain ⟨⟨⟩, authority, h⟩ := bind_ok.1 h
  obtain ⟨id, hid, h⟩ := bind_ok.1 h
  refine ⟨checkAuthority_eq_ok_iff.1 authority, id, hid, ?_⟩
  split at h
  · next e' found =>
    cases h
    exact ⟨by simpa using List.find?_some found, .inl ⟨List.mem_of_find?_eq_some found, rfl⟩⟩
  · next absent =>
    obtain ⟨e', new, h⟩ := bind_ok.1 h
    cases h
    obtain ⟨records, encoded⟩ := newEvent_eq_ok new
    refine ⟨records, .inr ⟨fun e' mem => ?_, encoded, rfl⟩⟩
    simpa using List.find?_eq_none.1 absent e' mem

/-- `append` leaves the authority of the journal as it is. -/
theorem bound_of_append (h : j.append codecs c state evidence = .ok (e, j')) : j'.Bound c := by
  obtain ⟨bound, -, -, -, ⟨-, rfl⟩ | ⟨-, -, rfl⟩⟩ := append_eq_ok h
  · exact bound
  · exact bound

theorem exists_append (bound : j.Bound c) (hid : c.changesetId codecs = .ok id)
    (encoded : ∃ b, c.encode codecs = .ok b) (evidence : Json) (finite : evidence.isFinite = true)
    (state : JournalState) : ∃ e j', j.append codecs c state evidence = .ok (e, j') := by
  obtain ⟨b, hb⟩ := encoded
  have material : (j.draft id (sha256 b) state evidence).material.isFinite = true := by
    simp [JournalEvent.material, draft, Json.isFinite, Json.fieldsFinite, Json.fieldFinite, finite]
  have new : ∃ e, j.newEvent codecs c id state evidence = .ok e :=
    ⟨_, bind_ok.2 ⟨b, hb, bind_ok.2 ⟨_, if_pos material, rfl⟩⟩⟩
  obtain ⟨e, new⟩ := new
  cases found : j.events.find? fun e => e.Records id state with
  | some e' =>
    refine ⟨e', j, bind_ok.2 ⟨(), checkAuthority_eq_ok_iff.2 bound,
      bind_ok.2 ⟨id, hid, ?_⟩⟩⟩
    rw [found]
  | none =>
    refine ⟨e, j.push e, bind_ok.2 ⟨(), checkAuthority_eq_ok_iff.2 bound,
      bind_ok.2 ⟨id, hid, ?_⟩⟩⟩
    rw [found]
    exact bind_ok.2 ⟨e, new, rfl⟩

theorem last_push (h : e.changesetId = id) : (j.push e).last id = some e := by
  rw [last, push, List.reverse_append, List.reverse_singleton, List.singleton_append,
    List.find?_cons_of_pos (by simpa using h)]

end BinaryChangeJournal

end SimplicioFast
