import SimplicioFast.ChangeSet.Recognise
import SimplicioFast.ChangeSet.Retry
import SimplicioFast.Lib.JsonCanonical

/-!
# Applied change sets

`materialize` answers `applied` when `validate` accepts the tree that the adapter leaves, whether or
not it finds every operation done there.  Two questions follow.  Is the tree in which the simulation
ends always answered with `applied`, and later with `already_applied`?  It is for the change sets
whose operations agree on every path (`recognisesResult_iff`).  Does a tree that is answered with
`applied` hold what the simulation ends in?  It does when the adapter has carried the operations out
and they agree (`holdsPostImage_iff`).
-/

namespace SimplicioFast

theorem Validation.isFinite_toJson (v : Validation) : v.toJson.isFinite = true := by
  have operations : Json.itemsFinite (v.operations.map fun s => .obj [("path", .str s.1),
      ("status", .str (if s.2 = .ready then "ready" else "idempotent"))]) = true := by
    rw [Json.itemsFinite_iff]
    intro x mem
    obtain ⟨s, -, rfl⟩ := List.mem_map.1 mem
    rfl
  simp only [toJson, Json.isFinite, Json.fieldsFinite, Json.fieldFinite, operations, Bool.and_self]

namespace ChangeSet

variable {codecs : Codecs} {c : BinaryChangeSet} {j j' : BinaryChangeJournal} {id : PyStr}
  {m : MaterializeCall} {r : Receipt} {v v' : Validation}

/-! ## Receipts of an applied change set -/

theorem recordFailure_status {adapterCalled : Bool} {x : ChangeSetRaised}
    (h : (recordFailure codecs c j id adapterCalled x).receipt = .ok r) : r.status ≠ .applied := by
  unfold recordFailure at h
  split at h
  · dsimp only at h
    split at h
    · cases h
      exact ReceiptStatus.noConfusion
    · split at h
      · cases h
        exact ReceiptStatus.noConfusion
      · cases h
  · split at h
    · cases h
    · dsimp only at h
      split at h
      · cases h
        exact ReceiptStatus.noConfusion
      · split at h
        · cases h
          exact ReceiptStatus.noConfusion
        · cases h

theorem finish_status {applied : Json} (h : (finish codecs c j id m applied).receipt = .ok r)
    (status : r.status = .applied) : ∃ v, c.validate codecs m.after = .ok v := by
  unfold finish at h
  split at h
  · exact absurd status (recordFailure_status h)
  · next v valid => exact ⟨v, valid⟩

theorem attempt_status (h : (attempt codecs c j id m).receipt = .ok r)
    (status : r.status = .applied) : ∃ v, c.validate codecs m.after = .ok v := by
  unfold attempt at h
  split at h
  · exact absurd status (recordFailure_status h)
  · dsimp only at h
    split at h
    · exact absurd status (recordFailure_status h)
    · split_ifs at h
      · split at h
        · exact absurd status (recordFailure_status h)
        · cases h
          cases status
      · split at h
        · exact absurd status (recordFailure_status h)
        · exact finish_status h status

/-- An `applied` receipt vouches for a validation of the tree that the adapter has left. -/
theorem materialize_status (h : (materialize codecs c j m).receipt = .ok r)
    (status : r.status = .applied) : ∃ v, c.validate codecs m.after = .ok v := by
  unfold materialize at h
  split at h
  · cases h
  · split at h
    · exact attempt_status h status
    · split at h
      all_goals first | exact attempt_status h status | (cases h; cases status)

/-- `materialize` may attempt the change set, and can write to the journal. -/
structure Attemptable (codecs : Codecs) (c : BinaryChangeSet) (j : BinaryChangeJournal) : Prop where
  bound : j.Bound c
  encoded : ∃ b, c.encode codecs = .ok b
  isOpen : ∀ id, c.changesetId codecs = .ok id → ∀ state ∈ j.lastState id, closed state = false

/-- The adapter and the refresh answer, with values that the journal can record. -/
def Answers (m : MaterializeCall) : Prop :=
  (∃ applied, m.outcome = .ok applied ∧ applied.isFinite = true) ∧
    ∃ refresh, m.refresh = .ok refresh ∧ refresh.isFinite = true

theorem materialize_of_answers (attemptable : Attemptable codecs c j) (answers : Answers m)
    (hid : c.changesetId codecs = .ok id) (valid : c.validate codecs m.before = .ok v)
    (ready : v.idempotent = false) (valid' : c.validate codecs m.after = .ok v') :
    ∃ r, (materialize codecs c j m).receipt = .ok r ∧ r.status = .applied ∧
      r.validation = some v' := by
  obtain ⟨⟨applied, outcome, finite⟩, refresh, hrefresh, finite'⟩ := answers
  obtain ⟨e, j₁, sealed⟩ := BinaryChangeJournal.exists_append attemptable.bound hid
    attemptable.encoded (.obj [("validation", v.toJson)])
    (by simp [Json.isFinite, Json.fieldsFinite, Json.fieldFinite, v.isFinite_toJson]) .sealed
  obtain ⟨e', j₂, recorded⟩ := BinaryChangeJournal.exists_append
    (BinaryChangeJournal.bound_of_append sealed) hid attemptable.encoded
    (.obj [("adapter", applied), ("validation", v'.toJson), ("refresh", refresh)])
    (by simp [Json.isFinite, Json.fieldsFinite, Json.fieldFinite, v'.isFinite_toJson, finite,
      finite']) .applied
  rw [materialize_of_open hid (attemptable.isOpen id hid)]
  simp only [attempt, valid, sealed, ready, outcome, finish, valid', hrefresh, recorded]
  exact ⟨_, rfl, rfl, rfl⟩

end ChangeSet

namespace BinaryChangeSet

open ChangeSet

variable {codecs : Codecs} {c : BinaryChangeSet} {tree : Tree} {state : SimState}
  {statuses : List (PyStr × OpStatus)}

/-! ## The tree in which the simulation ends -/

theorem createEmpty_simulation :
    createEmpty.simulation utf8Codecs (.bare "/r") =
      .ok (Dict.empty.set "a" (some []), [("a", .ready)]) := rfl

theorem createEmpty_recognisable : createEmpty.Recognisable utf8Codecs (.bare "/r") := by
  refine ⟨?_, ?_⟩
  · intro o mem o' mem' p he
    rw [List.mem_singleton.1 mem] at he
    cases he
  · intro o mem q hf
    rw [List.mem_singleton.1 mem] at hf
    cases hf
    rw [List.mem_singleton.1 mem]
    exact ⟨[], rfl, by decide +kernel⟩

theorem createEmpty_validate :
    ∃ v, createEmpty.validate utf8Codecs (.bare "/r") = .ok v ∧ v.idempotent = false := by
  have encoded := isOk_changesetId_createEmpty
  cases hid : createEmpty.changesetId utf8Codecs with
  | error x =>
    rw [hid] at encoded
    cases encoded
  | ok id =>
    exact ⟨⟨id, [("a", .ready)]⟩, validate_eq_ok_iff.2
      ⟨rfl, rfl, rfl, rfl, _, _, createEmpty_simulation, id, hid, rfl⟩, rfl⟩

/-- The content of a path once every operation has been carried out. -/
def result (codecs : Codecs) (c : BinaryChangeSet) (before : Contents) : Contents := fun p =>
  if ∃ o ∈ c.operations, o.empties = some p then none
  else postImage codecs before c.operations p (before p)

/-- The adapter has carried out every operation: what an operation moves or deletes is gone, and what
it writes is there. -/
def CarriedOut (codecs : Codecs) (c : BinaryChangeSet) (before after : Tree) : Prop :=
  ∀ o ∈ c.operations, ∀ p, o.fills = some p ∨ o.empties = some p →
    contents after .empty p = c.result codecs (contents before .empty) p

/-- The tree holds what the simulation ends in on every path that an operation changes, and
`validate` finds every operation done in it. -/
structure HoldsPostImage (codecs : Codecs) (c : BinaryChangeSet) (before after : Tree)
    (state : SimState) : Prop where
  contents : ∀ o ∈ c.operations, ∀ p, o.fills = some p ∨ o.empties = some p →
    contents after .empty p = contents before state p
  validate : ∃ v, c.validate codecs after = .ok v ∧ v.idempotent = true

theorem done_congr {contents contents' : Contents}
    (same : ∀ o ∈ c.operations, ∀ p, o.fills = some p ∨ o.empties = some p →
      contents p = contents' p) :
    (∀ o ∈ c.operations, o.Done contents) ↔ ∀ o ∈ c.operations, o.Done contents' := by
  refine forall₂_congr fun o mem => and_congr ?_ ?_
  · exact forall₂_congr fun p hf => by rw [same o mem p (.inl hf)]
  · exact forall₂_congr fun p he => by rw [same o mem p (.inr he)]

theorem validate_idempotent_iff {v : Validation} (valid : c.validate codecs tree = .ok v) :
    (∃ v, c.validate codecs tree = .ok v ∧ v.idempotent = true) ↔
      ∀ o ∈ c.operations, o.Done (contents tree .empty) := by
  obtain ⟨repository, lease, fence, safe, state, statuses, h, id, hid, -⟩ :=
    validate_eq_ok_iff.1 valid
  rw [← simulate_idempotent_iff codecs fun o mem => simulate_reads h o mem]
  constructor
  · rintro ⟨v', valid', done⟩
    obtain ⟨-, -, -, -, state', statuses', h', id', -, rfl⟩ := validate_eq_ok_iff.1 valid'
    exact ⟨state', statuses', h', done⟩
  · rintro ⟨state', statuses', h', done⟩
    exact ⟨⟨id, statuses'⟩, validate_eq_ok_iff.2
      ⟨repository, lease, fence, safe, state', statuses', h', id, hid, rfl⟩, done⟩

theorem contents_eq_result (h : c.simulation codecs tree = .ok (state, statuses))
    (recognisable : c.Recognisable codecs tree) (p : PyStr) :
    contents tree state p = c.result codecs (contents tree .empty) p := by
  unfold result
  split_ifs with emptied
  · obtain ⟨o', mem', he⟩ := emptied
    exact (contents_of_not_filled h fun o'' mem'' =>
      recognisable.apart o' mem' o'' mem'' p he).2.1 ⟨o', mem', he⟩
  · exact contents_of_filled h recognisable.apart (fun _ _ _ => .inr rfl) fun o' mem' he =>
      emptied ⟨o', mem', he⟩

/-- A tree that `materialize` has answered with `applied` holds what the simulation ends in exactly
when the adapter has carried the operations out and they agree on every path. -/
theorem holdsPostImage_iff {j : BinaryChangeJournal} {m : MaterializeCall} {r : Receipt}
    (receipt : (ChangeSet.materialize codecs c j m).receipt = .ok r) (status : r.status = .applied)
    (h : c.simulation codecs m.before = .ok (state, statuses)) :
    c.HoldsPostImage codecs m.before m.after state ↔
      c.Recognisable codecs m.before ∧ c.CarriedOut codecs m.before m.after := by
  obtain ⟨v, valid⟩ := materialize_status receipt status
  constructor
  · rintro ⟨same, validates⟩
    have done := (done_congr same).1 ((validate_idempotent_iff valid).1 validates)
    have recognisable := (done_iff_recognisable h).1 done
    refine ⟨recognisable, fun o mem p changes => ?_⟩
    rw [same o mem p changes, contents_eq_result h recognisable]
  · rintro ⟨recognisable, carriedOut⟩
    have same : ∀ o ∈ c.operations, ∀ p, o.fills = some p ∨ o.empties = some p →
        contents m.after .empty p = contents m.before state p := by
      intro o mem p changes
      rw [carriedOut o mem p changes, contents_eq_result h recognisable]
    exact ⟨same, (validate_idempotent_iff valid).2
      ((done_congr same).2 ((done_iff_recognisable h).2 recognisable))⟩

/-- A call of `materialize` on an empty tree, whose adapter leaves the given tree. -/
def leaving (after : Tree) : MaterializeCall :=
  ⟨.bare "/r", .ok .null, after, .ok refreshNotNeeded⟩

/-- A tree that validates is answered with `applied`. -/
theorem createEmpty_applied {after : Tree} {v' : Validation}
    (valid' : createEmpty.validate utf8Codecs after = .ok v') :
    ∃ r, (ChangeSet.materialize utf8Codecs createEmpty .bare (leaving after)).receipt = .ok r ∧
      r.status = .applied := by
  obtain ⟨v, valid, ready⟩ := createEmpty_validate
  have encoded := isOk_encode_createEmpty
  have encoded' : ∃ b, createEmpty.encode utf8Codecs = .ok b := by
    cases h : createEmpty.encode utf8Codecs with
    | error x =>
      rw [h] at encoded
      cases encoded
    | ok b => exact ⟨b, rfl⟩
  have attemptable : Attemptable utf8Codecs createEmpty .bare :=
    ⟨⟨rfl, rfl, rfl⟩, encoded', fun _ _ _ mem => (by cases mem)⟩
  obtain ⟨-, -, -, -, -, -, -, id, hid, -⟩ := validate_eq_ok_iff.1 valid
  obtain ⟨r, receipt, status, -⟩ := materialize_of_answers (m := leaving after) attemptable
    ⟨⟨_, rfl, rfl⟩, _, rfl, rfl⟩ hid valid ready valid'
  exact ⟨r, receipt, status⟩

/-- The tree that holds the empty file `a`. -/
def treeOfEmpty : Tree := (Tree.bare "/r").after (Dict.empty.set "a" (some []))

/-- An adapter that creates the file leaves its post-image. -/
theorem holdsPostImage_createEmpty :
    createEmpty.HoldsPostImage utf8Codecs (.bare "/r") treeOfEmpty
      (Dict.empty.set "a" (some [])) := by
  obtain ⟨v, valid, -⟩ := createEmpty_validate
  obtain ⟨v', valid', -⟩ :=
    (validate_after_iff valid createEmpty_simulation).2 createEmpty_recognisable
  obtain ⟨r, receipt, status⟩ := createEmpty_applied valid'
  refine (holdsPostImage_iff receipt status createEmpty_simulation).2
    ⟨createEmpty_recognisable, fun o mem p changes => ?_⟩
  rw [List.mem_singleton.1 mem] at changes
  rcases changes with hf | he
  · cases hf
    rfl
  · cases he

/-- An adapter that does nothing is answered with `applied` too. -/
theorem not_holdsPostImage_createEmpty :
    ∃ r, (ChangeSet.materialize utf8Codecs createEmpty .bare (leaving (.bare "/r"))).receipt =
        .ok r ∧ r.status = .applied ∧
      ¬ createEmpty.HoldsPostImage utf8Codecs (.bare "/r") (.bare "/r")
        (Dict.empty.set "a" (some [])) := by
  obtain ⟨v, valid, -⟩ := createEmpty_validate
  obtain ⟨r, receipt, status⟩ := createEmpty_applied valid
  refine ⟨r, receipt, status, fun holds => ?_⟩
  have content := holds.contents createEmptyFile List.mem_cons_self "a" (.inl rfl)
  cases content

end BinaryChangeSet

end SimplicioFast
