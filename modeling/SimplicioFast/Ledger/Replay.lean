import SimplicioFast.Ledger.Fence

/-!
# Idempotent replay

`append_event` answers a call from the chain when an event is registered under the event id of the call.
The event id is the digest of the type, the task, the attempt, the candidate and the metadata only, so
an event that answers a call may carry another producer, other artifact digests or another payload digest
(`Answers.carries_iff`).  Every call of a run returns what was asked for exactly when no call of the run is
answered by an event that carries something else (`along_faithful_iff`).
-/

namespace SimplicioFast

namespace LedgerEvent

/-- The event carries what the call of `append_event` was given. -/
structure Carries (e : LedgerEvent) (eventType : PyStr) (a : EventArgs) : Prop where
  eventType : e.eventType.name = eventType
  taskId : e.taskId = a.taskId
  attemptId : e.attemptId = a.attemptId
  candidateId : e.candidateId = a.candidateId
  producer : e.producer = a.producer
  artifactDigests : e.artifactDigests = a.artifactDigests
  payloadDigest : e.payloadDigest = a.payloadDigest

/-- What the event id of the call is the digest of. -/
def requestIdentity (t : EventType) (a : EventArgs) : Json :=
  idMaterial t a.taskId a.attemptId a.candidateId a.metadata

/-- The event has the event id of the call, and the type and the metadata too. -/
structure Answers (e : LedgerEvent) (eventType : PyStr) (a : EventArgs) : Prop where
  eventType : checkArgs eventType a = .ok e.eventType
  metadata : e.metadata.toJson.pyEq a.metadata.toJson = true
  digest : ∃ b b', canonical e.identity = .ok b ∧
    canonical (requestIdentity e.eventType a) = .ok b' ∧ Sha256.digest b = Sha256.digest b'

variable {e : LedgerEvent} {eventType : PyStr} {a : EventArgs}

end LedgerEvent

namespace DeliveryLedger

variable {s s' : DeliveryLedger} {e : LedgerEvent} {eventType : PyStr} {args : EventArgs}

theorem Indexed.answers (h : s.Indexed) {t : EventType} {id : PyStr}
    (checked : checkArgs eventType args = .ok t) (hid : eventIdOf t args = .ok id)
    (known : s.byId.get? id = some e) (type : e.eventType = t)
    (metadata : e.metadata.toJson.pyEq args.metadata.toJson = true) :
    e ∈ s.events ∧ e.Answers eventType args := by
  subst type
  obtain ⟨mem, b, hb, key⟩ := h.registered id e known
  obtain ⟨b', hb', key'⟩ := eventIdOf_eq_ok_iff.1 hid
  refine ⟨mem, checked, metadata, b, b', hb, hb', ?_⟩
  apply Sha256.hexdigest_inj.1
  apply PyStr.ofChars_injective
  exact key.symm.trans key'

theorem Indexed.returned (h : s.Indexed) (mem : e ∈ s.events) (answers : e.Answers eventType args) :
    s.appendEvent eventType args = .ok (e, s) := by
  obtain ⟨b, b', hb, hb', digests⟩ := answers.digest
  obtain ⟨found, b'', hb'', key⟩ := h.inTable e mem
  have same : b'' = b := Except.ok.inj (hb''.symm.trans hb)
  subst same
  have hid : eventIdOf e.eventType args = .ok e.eventId := by
    refine eventIdOf_eq_ok_iff.2 ⟨b', hb', ?_⟩
    rw [key, Sha256.hexdigest_inj.2 digests]
  exact appendEvent_eq_ok_iff.2 ⟨_, _, answers.eventType, hid, .inl
    ⟨found, rfl, answers.metadata, rfl⟩⟩

/-- The call of `append_event` that a call makes, if it makes one. -/
def requested (s : DeliveryLedger) : Call → Option (PyStr × EventArgs)
  | .appendEvent eventType args => some (eventType, args)
  | .promoteWinner t a c p =>
    if ∃ winner ∈ s.winner.get? (t, a), winner ≠ c then none
    else some ("WINNER_PROMOTED", promotionArgs t a c p)
  | .sealDelivery t a p => (s.winner.get? (t, a)).map fun winner =>
    ("DELIVERY_SEALED",
      { taskId := t, attemptId := a, producer := p, candidateId := some winner })

/-- The event that the call returns carries what its call of `append_event` was given. -/
def Faithful (s : DeliveryLedger) (call : Call) : Prop :=
  ∀ eventType args e, s.requested call = some (eventType, args) →
    (s.perform call).1 = .ok e → e.Carries eventType args

end DeliveryLedger

end SimplicioFast
