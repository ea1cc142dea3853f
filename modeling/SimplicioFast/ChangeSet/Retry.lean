import SimplicioFast.ChangeSet.Materialize

/-!
# Adapter calls after an unknown outcome

A run calls `materialize` and `reconcile_unknown_effect` on one change set and one journal.  An
adapter call with an unknown outcome stays pending until a later reconciliation has looked at the
tree and recorded what it found; no adapter may be called meanwhile (`NotBlind`).

`materialize` reads from the last event of the journal whether an outcome is pending, but `append`
does not record a second `unknown` event.  A run obeys the law as long as each unknown outcome is the
first one that the journal records for the change set (`along_notBlind`).
-/

namespace SimplicioFast

/-- A call of a run, on the tree that it finds. -/
inductive MaterializerCall
  | materialize (m : MaterializeCall)
  | reconcile (tree : Tree)

/-- The state of a run: the journal, and whether an adapter call with an unknown outcome has not been
reconciled. -/
structure MaterializerState where
  journal : BinaryChangeJournal
  pending : Bool

namespace BinaryChangeJournal

open ChangeSet

variable {codecs : Codecs} {c : BinaryChangeSet} {j j' : BinaryChangeJournal} {id : PyStr}

/-- The second journal is the first one after some calls of `append` for the change set. -/
inductive Extends (codecs : Codecs) (c : BinaryChangeSet) :
    BinaryChangeJournal → BinaryChangeJournal → Prop
  | refl (j : BinaryChangeJournal) : Extends codecs c j j
  | append {j j' j'' : BinaryChangeJournal} {state : JournalState} {evidence : Json}
    {e : JournalEvent} (called : j.append codecs c state evidence = .ok (e, j'))
    (rest : Extends codecs c j' j'') : Extends codecs c j j''

theorem Extends.single {state : JournalState} {evidence : Json} {e : JournalEvent}
    (called : j.append codecs c state evidence = .ok (e, j')) : j.Extends codecs c j' :=
  .append called (.refl _)

/-- An event of the change set is in the journal only if the change set can be encoded. -/
def Encoded (codecs : Codecs) (c : BinaryChangeSet) (j : BinaryChangeJournal) : Prop :=
  ∀ e ∈ j.events, c.changesetId codecs = .ok e.changesetId → ∃ b, c.encode codecs = .ok b

/-- The journal holds no unknown outcome of the change set. -/
def NoUnknown (codecs : Codecs) (c : BinaryChangeSet) (j : BinaryChangeJournal) : Prop :=
  ∀ e ∈ j.events, ∀ id, c.changesetId codecs = .ok id → ¬ e.Records id .unknown

theorem Encoded.append (h : j.Encoded codecs c) {state : JournalState} {evidence : Json}
    {e : JournalEvent} (called : j.append codecs c state evidence = .ok (e, j')) :
    j'.Encoded codecs c := by
  obtain ⟨-, id, -, -, ⟨-, rfl⟩ | ⟨-, encoded, rfl⟩⟩ := append_eq_ok called
  · exact h
  · exact fun _ _ _ => encoded

theorem Encoded.extends (h : j.Encoded codecs c) (ext : j.Extends codecs c j') :
    j'.Encoded codecs c := by
  induction ext with
  | refl => exact h
  | append called _ ih => exact ih (h.append called)

end BinaryChangeJournal

namespace ChangeSet

variable {codecs : Codecs} {c : BinaryChangeSet} {j j' : BinaryChangeJournal} {id : PyStr}
  {m : MaterializeCall}

/-! ## What a call does to the journal -/

theorem recordFailure_extends (adapterCalled : Bool) (x : ChangeSetRaised) :
    j.Extends codecs c (recordFailure codecs c j id adapterCalled x).journal := by
  unfold recordFailure
  split
  · dsimp only
    split
    · next called => exact .single called
    · split <;> exact .refl _
  · split
    · exact .refl _
    · dsimp only
      split
      · next called => exact .single called
      · split <;> exact .refl _

theorem recordFailure_adapterCalled (adapterCalled : Bool) (x : ChangeSetRaised) :
    (recordFailure codecs c j id adapterCalled x).adapterCalled = adapterCalled := by
  unfold recordFailure
  split
  · dsimp only
    split
    · rfl
    · split <;> rfl
  · split
    · rfl
    · dsimp only
      split
      · rfl
      · split <;> rfl

theorem finish_extends (applied : Json) :
    j.Extends codecs c (finish codecs c j id m applied).journal := by
  unfold finish
  split
  · exact recordFailure_extends _ _
  · split
    · exact recordFailure_extends _ _
    · dsimp only
      split
      · exact recordFailure_extends _ _
      · next called => exact .single called

theorem attempt_extends : j.Extends codecs c (attempt codecs c j id m).journal := by
  unfold attempt
  split
  · exact recordFailure_extends _ _
  · dsimp only
    split
    · exact recordFailure_extends _ _
    · next sealed =>
      refine .append sealed ?_
      split_ifs
      · split
        · exact recordFailure_extends _ _
        · next called => exact .single called
      · split
        · exact recordFailure_extends _ _
        · exact finish_extends _

theorem materialize_extends : j.Extends codecs c (materialize codecs c j m).journal := by
  unfold materialize
  split
  · exact .refl _
  · split
    · exact attempt_extends
    · split
      all_goals first | exact .refl _ | exact attempt_extends

theorem reconcileTree_extends (tree : Tree) (previous : JournalEvent) :
    j.Extends codecs c (reconcileTree codecs c j id tree previous).journal := by
  unfold reconcileTree
  split
  · unfold recordReconciliation
    dsimp only
    split
    · exact .refl _
    · next called => exact .single called
  · split <;> exact .refl _

theorem reconcileUnknownEffect_extends (tree : Tree) :
    j.Extends codecs c (reconcileUnknownEffect codecs c j tree).journal := by
  unfold reconcileUnknownEffect
  split
  · exact .refl _
  · split
    · exact .refl _
    · split
      · exact reconcileTree_extends _ _
      · exact .refl _
      · exact .refl _

/-! ## When the adapter is called -/

/-- The adapter reports that it does not know what it did. -/
def Unknown (m : MaterializeCall) : Bool :=
  match m.outcome with
  | .error (.unknownEffect _) => true
  | _ => false

/-- The states after which `materialize` makes no further attempt. -/
def closed : JournalState → Bool
  | .applied | .idempotent | .unknown | .reconcileAmbiguous => true
  | .sealed | .rejected | .reconciled => false

/-- The checks that `materialize` makes before it calls the adapter. -/
structure Reaches (codecs : Codecs) (c : BinaryChangeSet) (j : BinaryChangeJournal)
    (m : MaterializeCall) : Prop where
  bound : j.Bound c
  valid : ∃ v, c.validate codecs m.before = .ok v ∧ v.idempotent = false
  open_ : ∃ id, c.changesetId codecs = .ok id ∧ ∀ state ∈ j.lastState id, closed state = false

theorem attempt_of_adapterCalled (h : (attempt codecs c j id m).adapterCalled = true) :
    (∃ v, c.validate codecs m.before = .ok v ∧ v.idempotent = false) ∧
      ∃ evidence e j', j.append codecs c .sealed evidence = .ok (e, j') ∧
        attempt codecs c j id m =
          match m.outcome with
          | .error x => recordFailure codecs c j' id true x
          | .ok applied => finish codecs c j' id m applied := by
  unfold attempt at h ⊢
  split at h
  · rw [recordFailure_adapterCalled] at h
    cases h
  · next v valid =>
    dsimp only at h ⊢
    split at h
    · rw [recordFailure_adapterCalled] at h
      cases h
    · next e j' sealed =>
      rw [valid]
      split_ifs at h with idempotent
      · split at h
        · rw [recordFailure_adapterCalled] at h
          cases h
        · cases h
      · rw [if_neg idempotent]
        exact ⟨⟨v, rfl, by simpa using idempotent⟩, _, e, j', sealed, rfl⟩

theorem materialize_of_open (hid : c.changesetId codecs = .ok id)
    (isOpen : ∀ state ∈ j.lastState id, closed state = false) :
    materialize codecs c j m = attempt codecs c j id m := by
  unfold materialize
  rw [BinaryChangeJournal.lastState] at isOpen
  rw [hid]
  cases found : j.last id with
  | none => simp only [found]
  | some previous =>
    have state := isOpen previous.state (by rw [found]; rfl)
    cases h : previous.state <;> rw [h] at state <;> cases state <;> simp only [found, h]

theorem materialize_of_closed (hid : c.changesetId codecs = .ok id) {state : JournalState}
    (last : j.lastState id = some state) (isClosed : closed state = true) :
    (materialize codecs c j m).adapterCalled = false ∧ (materialize codecs c j m).journal = j := by
  rw [BinaryChangeJournal.lastState, Option.map_eq_some_iff] at last
  obtain ⟨previous, found, rfl⟩ := last
  unfold materialize
  rw [hid]
  dsimp only
  rw [found]
  cases h : previous.state <;> rw [h] at isClosed <;> cases isClosed <;>
    simp only [h, and_self]

theorem materialize_of_adapterCalled (h : (materialize codecs c j m).adapterCalled = true) :
    ∃ id, c.changesetId codecs = .ok id ∧ (∀ state ∈ j.lastState id, closed state = false) ∧
      materialize codecs c j m = attempt codecs c j id m := by
  cases hid : c.changesetId codecs with
  | error x =>
    unfold materialize at h
    rw [hid] at h
    cases h
  | ok id =>
    have isOpen : ∀ state ∈ j.lastState id, closed state = false := by
      intro state last
      by_contra isClosed
      rw [(materialize_of_closed hid last (by simpa using isClosed)).1] at h
      cases h
    exact ⟨id, rfl, isOpen, materialize_of_open hid isOpen⟩

/-- A call that reaches the adapter has passed the checks of `materialize`. -/
theorem reaches_of_adapterCalled (h : (materialize codecs c j m).adapterCalled = true) :
    Reaches codecs c j m := by
  obtain ⟨id, hid, isOpen, same⟩ := materialize_of_adapterCalled h
  rw [same] at h
  obtain ⟨valid, _, _, _, sealed, -⟩ := attempt_of_adapterCalled h
  exact ⟨(BinaryChangeJournal.append_eq_ok sealed).1, valid, id, hid, isOpen⟩

theorem lastState_recordFailure (bound : j.Bound c) (hid : c.changesetId codecs = .ok id)
    (encoded : ∃ b, c.encode codecs = .ok b) (first : j.NoUnknown codecs c) (reasonCode : PyStr) :
    (recordFailure codecs c j id true (.unknownEffect reasonCode)).journal.lastState id =
      some .unknown := by
  obtain ⟨e, j', called⟩ := BinaryChangeJournal.exists_append bound hid
    encoded (errorEvidence reasonCode reasonCode) rfl .unknown
  obtain ⟨-, id', hid', records, ⟨mem, -⟩ | ⟨-, -, pushed⟩⟩ :=
    BinaryChangeJournal.append_eq_ok called
  · exact absurd records (first e mem id' hid')
  · rw [hid] at hid'
    cases hid'
    have journal : (recordFailure codecs c j id true (.unknownEffect reasonCode)).journal =
        j.push e := by
      simp only [recordFailure, called, pushed]
    rw [journal, BinaryChangeJournal.lastState, BinaryChangeJournal.last_push records.1,
      Option.map_some, records.2]

/-- After an adapter call with an unknown outcome, the first of the journal, the last event of the
change set is `unknown`. -/
theorem lastState_of_unknown (written : j.Encoded codecs c) (first : j.NoUnknown codecs c)
    (h : (materialize codecs c j m).adapterCalled = true) (unknown : Unknown m = true) :
    ∃ id, c.changesetId codecs = .ok id ∧
      (materialize codecs c j m).journal.lastState id = some .unknown := by
  obtain ⟨id, hid, -, same⟩ := materialize_of_adapterCalled h
  rw [same] at h ⊢
  obtain ⟨-, evidence, e, j', sealed, result⟩ := attempt_of_adapterCalled h
  refine ⟨id, hid, ?_⟩
  obtain ⟨-, id', hid', records, growth⟩ := BinaryChangeJournal.append_eq_ok sealed
  have encoded : ∃ b, c.encode codecs = .ok b := by
    rcases growth with ⟨mem, -⟩ | ⟨-, encoded, -⟩
    · exact written e mem (by rw [records.1, hid'])
    · exact encoded
  have first' : j'.NoUnknown codecs c := by
    rcases growth with ⟨-, rfl⟩ | ⟨-, -, rfl⟩
    · exact first
    · intro e' mem id'' hid'' records'
      rcases List.mem_append.1 mem with mem | mem
      · exact first e' mem id'' hid'' records'
      · rw [List.mem_singleton.1 mem, JournalEvent.Records, records.2] at records'
        cases records'.2
  rw [result]
  unfold Unknown at unknown
  split at unknown
  · next reasonCode outcome =>
    rw [outcome]
    exact lastState_recordFailure (BinaryChangeJournal.bound_of_append sealed) hid encoded first' reasonCode
  · cases unknown

theorem reconcileUnknownEffect_adapterCalled (tree : Tree) :
    (reconcileUnknownEffect codecs c j tree).adapterCalled = false := by
  unfold reconcileUnknownEffect
  split
  · rfl
  · split
    · rfl
    · split
      · unfold reconcileTree
        split
        · unfold recordReconciliation
          dsimp only
          split <;> rfl
        · split <;> rfl
      · rfl
      · rfl

theorem reconcileUnknownEffect_journal (tree : Tree)
    (h : (reconcileUnknownEffect codecs c j tree).established = false) :
    (reconcileUnknownEffect codecs c j tree).journal = j := by
  unfold reconcileUnknownEffect at h ⊢
  split
  · rfl
  · next hid =>
    rw [hid] at h
    dsimp only at h
    split
    · rfl
    · next found =>
      rw [found] at h
      dsimp only at h
      split
      · next state =>
        rw [state] at h
        unfold reconcileTree at h ⊢
        dsimp only at h
        split
        · next valid =>
          rw [valid] at h
          unfold recordReconciliation at h ⊢
          dsimp only at h ⊢
          split
          · rfl
          · next called =>
            rw [called] at h
            cases h
        · split <;> rfl
      · rfl
      · rfl

end ChangeSet

namespace MaterializerState

open ChangeSet

variable (codecs : Codecs) (c : BinaryChangeSet) {s : MaterializerState}

def effect (s : MaterializerState) : MaterializerCall → Effect
  | .materialize m => materialize codecs c s.journal m
  | .reconcile tree => reconcileUnknownEffect codecs c s.journal tree

def step (s : MaterializerState) (call : MaterializerCall) : MaterializerState :=
  let effect := s.effect codecs c call
  { journal := effect.journal
    pending := match call with
      | .materialize m => s.pending || effect.adapterCalled && Unknown m
      | .reconcile _ => s.pending && !effect.established }

/-- No adapter is called while an unknown outcome is pending. -/
def NotBlind (s : MaterializerState) (call : MaterializerCall) : Prop :=
  s.pending = true → (s.effect codecs c call).adapterCalled = false

instance (s : MaterializerState) (call : MaterializerCall) :
    Decidable (s.NotBlind codecs c call) :=
  inferInstanceAs (Decidable (_ = true → _ = false))

/-- The adapter reports an unknown outcome only when the journal holds no earlier one of the change
set. -/
def Admitted (s : MaterializerState) : MaterializerCall → Prop
  | .materialize m =>
    Unknown m = true → Reaches codecs c s.journal m → s.journal.NoUnknown codecs c
  | .reconcile _ => True

/-- A pending outcome is the last event of the change set in the journal. -/
structure Guarded (s : MaterializerState) : Prop where
  encoded : s.journal.Encoded codecs c
  last : s.pending = true →
    ∃ id, c.changesetId codecs = .ok id ∧ s.journal.lastState id = some .unknown

variable {codecs c}

theorem Guarded.step (h : s.Guarded codecs c) (call : MaterializerCall)
    (admitted : s.Admitted codecs c call) : (s.step codecs c call).Guarded codecs c := by
  cases call with
  | materialize m =>
    refine ⟨h.encoded.extends materialize_extends, fun pending => ?_⟩
    rw [MaterializerState.step, Bool.or_eq_true, Bool.and_eq_true] at pending
    rcases pending with pending | ⟨called, unknown⟩
    · obtain ⟨id, hid, last⟩ := h.last pending
      refine ⟨id, hid, ?_⟩
      simp only [MaterializerState.step, effect, (materialize_of_closed hid last rfl).2]
      exact last
    · exact lastState_of_unknown h.encoded
        (admitted unknown (reaches_of_adapterCalled called)) called unknown
  | reconcile tree =>
    refine ⟨h.encoded.extends (reconcileUnknownEffect_extends tree), fun pending => ?_⟩
    rw [MaterializerState.step, Bool.and_eq_true, Bool.not_eq_true'] at pending
    obtain ⟨pending, unsettled⟩ := pending
    obtain ⟨id, hid, last⟩ := h.last pending
    refine ⟨id, hid, ?_⟩
    simp only [MaterializerState.step, effect, reconcileUnknownEffect_journal tree unsettled]
    exact last

theorem Guarded.notBlind (h : s.Guarded codecs c) (call : MaterializerCall) :
    s.NotBlind codecs c call := by
  intro pending
  cases call with
  | materialize m =>
    obtain ⟨id, hid, last⟩ := h.last pending
    exact (materialize_of_closed hid last rfl).1
  | reconcile tree => exact reconcileUnknownEffect_adapterCalled tree

/-- In a run whose unknown outcomes are each the first one of the journal, no adapter is called while
an unknown outcome is pending. -/
theorem along_notBlind {j : BinaryChangeJournal} (written : j.Encoded codecs c)
    {calls : List MaterializerCall}
    (admitted : Machine.Along (step codecs c) (Admitted codecs c) ⟨j, false⟩ calls) :
    Machine.Along (step codecs c) (NotBlind codecs c) ⟨j, false⟩ calls :=
  admitted.imp_of_invariant (I := fun s => s.Guarded codecs c)
    ⟨written, fun pending => by cases pending⟩ (fun _ call guarded => guarded.step call)
    fun _ call guarded _ => guarded.notBlind call

/-- A call whose adapter changes nothing and gives the answer. -/
def answering (outcome : Except ChangeSetRaised Json) : MaterializerCall :=
  .materialize ⟨.bare "/r", outcome, .bare "/r", .ok refreshNotNeeded⟩

/-- A run that waits for the reconciliation of its unknown outcome. -/
theorem along_notBlind_reconciled :
    Machine.Along (step utf8Codecs createEmpty) (NotBlind utf8Codecs createEmpty) ⟨.bare, false⟩
      [answering (.error (.unknownEffect "timeout")), answering (.ok .null),
        .reconcile (.bare "/r"), answering (.ok .null)] := by
  refine along_notBlind (fun e mem => (by cases mem))
    ⟨fun _ _ e mem => (by cases mem), fun unknown => ?_, trivial, fun unknown => ?_, trivial⟩
  · cases unknown
  · cases unknown

/-- The second unknown outcome is not recorded, and the adapter is called once more. -/
theorem not_along_notBlind_unknown_twice :
    ¬ Machine.Along (step utf8Codecs createEmpty) (NotBlind utf8Codecs createEmpty) ⟨.bare, false⟩
      [answering (.error (.unknownEffect "timeout")), .reconcile (.bare "/r"),
        answering (.error (.unknownEffect "timeout")), answering (.ok .null)] := by
  intro along
  exact absurd along.2.2.2.1 (by decide +kernel)

end MaterializerState

end SimplicioFast
