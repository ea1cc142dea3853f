import SimplicioFast.Ledger.Delivery

/-!
# The winner fence

`promote_winner` writes the fence before `append_event` has accepted the event.  The chain keeps up
with the fence in a run whose promotions are all appendable (`Promotable`) and in which no
`WINNER_PROMOTED` event of another candidate is appended past the fence: in such a run every
delivery is sealed after its promotion, and a promotion that raises changes nothing
(`along_fenceLaw`).
-/

namespace SimplicioFast

namespace LedgerEvent

/-- The event promotes a candidate of a task and attempt. -/
def Promotes (e : LedgerEvent) (taskId attemptId candidateId : PyStr) : Prop :=
  e.eventType = .winnerPromoted ∧ e.taskId = taskId ∧ e.attemptId = attemptId ∧
    e.candidateId = some candidateId

/-- What the event id of the event is the digest of. -/
def identity (e : LedgerEvent) : Json :=
  idMaterial e.eventType e.taskId e.attemptId e.candidateId e.metadata

end LedgerEvent

/-! ## The canonical text -/

theorem canonical_eq_ok_iff {v : Json} {b : Bytes} :
    canonical v = .ok b ↔ (v.dumps false).encode = some b := by
  unfold canonical
  split <;> simp_all

theorem exists_canonical_iff (v : Json) :
    (∃ b, canonical v = .ok b) ↔ ∀ n, ¬ v.HasSurrogate n := by
  rw [← Json.encode_dumps_isSome_iff, Option.isSome_iff_exists]
  simp only [canonical_eq_ok_iff]

theorem distinctKeys_idMaterial (t : EventType) (taskId attemptId : PyStr)
    (candidateId : Option PyStr) (m : JsonObject) :
    (idMaterial t taskId attemptId candidateId m).DistinctKeys := by
  refine ⟨?_, trivial, trivial, trivial, trivial, ?_, m.distinct, trivial⟩
  · simp only [List.map_cons, List.map_nil]
    decide
  · cases candidateId <;> trivial

theorem idMaterial_inj {t t' : EventType} {taskId taskId' attemptId attemptId' : PyStr}
    {candidateId candidateId' : Option PyStr} {m m' : JsonObject} {b : Bytes}
    (h : canonical (idMaterial t taskId attemptId candidateId m) = .ok b)
    (h' : canonical (idMaterial t' taskId' attemptId' candidateId' m') = .ok b) :
    t = t' ∧ taskId = taskId' ∧ attemptId = attemptId' ∧ candidateId = candidateId' ∧
      (m.fields = [] ↔ m'.fields = []) := by
  have texts := PyStr.encode_injective (canonical_eq_ok_iff.1 h) (canonical_eq_ok_iff.1 h')
  have distinct := distinctKeys_idMaterial t taskId attemptId candidateId m
  have distinct' := distinctKeys_idMaterial t' taskId' attemptId' candidateId' m'
  have same := Json.find_eq_of_sortKeys_eq distinct.1 distinct'.1
    (Json.sortKeys_eq_of_dumps_eq distinct distinct' texts)
  have hType := Option.some.inj (same "event_type")
  have hTask := Option.some.inj (same "task_id")
  have hAttempt := Option.some.inj (same "attempt_id")
  have hCandidate := Option.some.inj (same "candidate_id")
  have hMetadata := Option.some.inj (same "metadata")
  refine ⟨EventType.name_injective (Json.str.inj hType), Json.str.inj hTask,
    Json.str.inj hAttempt, ?_, ?_⟩
  · cases candidateId <;> cases candidateId' <;> cases hCandidate <;> rfl
  · have lengths := congrArg List.length (Json.obj.inj hMetadata)
    simp only [List.length_insertionSort, Json.length_sortFields] at lengths
    rw [← List.length_eq_zero_iff, ← List.length_eq_zero_iff, lengths]

theorem surrogate_notMem_hexdigest (b : Bytes) (n : Fin 2048) :
    .surrogate n ∉ PyStr.ofChars (Sha256.hexdigest b) :=
  Json.surrogate_notMem_ofChars n _

theorem eventIdOf_eq_ok_iff {t : EventType} {a : EventArgs} {id : PyStr} :
    eventIdOf t a = .ok id ↔ ∃ b,
      canonical (idMaterial t a.taskId a.attemptId a.candidateId a.metadata) = .ok b ∧
        id = PyStr.ofChars (Sha256.hexdigest b) := by
  rw [eventIdOf, bind_ok]
  exact exists_congr fun b => and_congr_right fun _ => ⟨fun h => by cases h; rfl, fun h => by rw [h]; rfl⟩

namespace DeliveryLedger

variable {s s' : DeliveryLedger} {e : LedgerEvent} {eventType : PyStr} {args : EventArgs}

/-! ## What a call of `append_event` does -/

theorem appendEvent_eq_ok_iff :
    s.appendEvent eventType args = .ok (e, s') ↔
      ∃ t id, checkArgs eventType args = .ok t ∧ eventIdOf t args = .ok id ∧
        ((s.byId.get? id = some e ∧ e.eventType = t ∧
            e.metadata.toJson.pyEq args.metadata.toJson = true ∧ s' = s) ∨
          (s.byId.get? id = none ∧ ∃ h, eventHashOf (s.draft t id args).material = .ok h ∧
            e = { s.draft t id args with eventHash := h } ∧ s' = s.push e)) := by
  simp only [appendEvent, bind_ok]
  refine exists_congr fun t => ?_
  constructor
  · rintro ⟨ht, id, hid, h⟩
    refine ⟨id, ht, hid, ?_⟩
    cases known : s.byId.get? id with
    | some existing =>
      rw [known] at h
      dsimp only at h
      split_ifs at h with conflict
      obtain ⟨rfl, rfl⟩ := Prod.mk.inj (Except.ok.inj h)
      rw [not_or, not_not, Bool.not_eq_false] at conflict
      exact .inl ⟨rfl, conflict.1, conflict.2, rfl⟩
    | none =>
      rw [known] at h
      obtain ⟨hash, hhash, h⟩ := bind_ok.1 h
      obtain ⟨rfl, rfl⟩ := Prod.mk.inj (Except.ok.inj h)
      exact .inr ⟨rfl, hash, hhash, rfl, rfl⟩
  · rintro ⟨id, ht, hid, ⟨known, hType, hMetadata, rfl⟩ | ⟨fresh, hash, hhash, rfl, rfl⟩⟩
    · refine ⟨ht, id, hid, ?_⟩
      rw [known]
      exact if_neg (by simp [hType, hMetadata])
    · refine ⟨ht, id, hid, ?_⟩
      rw [fresh]
      exact bind_ok.2 ⟨hash, hhash, rfl⟩

/-! ## The chain and its index -/

/-- The table and the chain hold the same events, each under its own event id. -/
structure Indexed (s : DeliveryLedger) : Prop where
  registered : ∀ id e, s.byId.get? id = some e →
    e ∈ s.events ∧ ∃ b, canonical e.identity = .ok b ∧ id = PyStr.ofChars (Sha256.hexdigest b)
  inTable : ∀ e ∈ s.events, s.byId.get? e.eventId = some e ∧
    ∃ b, canonical e.identity = .ok b ∧ e.eventId = PyStr.ofChars (Sha256.hexdigest b)
  hashes : ∀ e ∈ s.events, ∀ n, .surrogate n ∉ e.eventHash

theorem Indexed.push (h : s.Indexed) (fresh : s.byId.get? e.eventId = none)
    (id : ∃ b, canonical e.identity = .ok b ∧ e.eventId = PyStr.ofChars (Sha256.hexdigest b))
    (hash : ∀ n, .surrogate n ∉ e.eventHash) : (s.push e).Indexed where
  registered := by
    intro k e' found
    simp only [DeliveryLedger.push, Dict.get?_set] at found
    split_ifs at found with hk
    · cases found
      subst hk
      exact ⟨List.mem_append_right _ List.mem_cons_self, id⟩
    · obtain ⟨mem, key⟩ := h.registered k e' found
      exact ⟨List.mem_append_left _ mem, key⟩
  inTable := by
    intro e' mem
    rcases List.mem_append.1 mem with old | new
    · obtain ⟨found, key⟩ := h.inTable e' old
      refine ⟨?_, key⟩
      have other : e'.eventId ≠ e.eventId := by
        intro same
        rw [same, fresh] at found
        cases found
      exact (Dict.get?_set_of_ne _ _ other).trans found
    · rw [List.mem_singleton.1 new]
      exact ⟨Dict.get?_set_self _ _ _, id⟩
  hashes := by
    intro e' mem
    rcases List.mem_append.1 mem with old | new
    · exact h.hashes e' old
    · rw [List.mem_singleton.1 new]
      exact hash

theorem eventHashOf_encodable {v : Json} {hash : PyStr} (h : eventHashOf v = .ok hash)
    (n : Fin 2048) : .surrogate n ∉ hash := by
  obtain ⟨b, -, h⟩ := bind_ok.1 h
  cases h
  exact surrogate_notMem_hexdigest _ n

/-- `append_event` keeps the chain and the table in step. -/
theorem Indexed.appendEvent (h : s.Indexed) (called : s.appendEvent eventType args = .ok (e, s')) :
    s'.Indexed := by
  obtain ⟨t, id, -, hid, ⟨-, -, -, rfl⟩ | ⟨fresh, hash, hhash, rfl, rfl⟩⟩ :=
    appendEvent_eq_ok_iff.1 called
  · exact h
  · exact h.push fresh (eventIdOf_eq_ok_iff.1 hid) (eventHashOf_encodable hhash)

theorem Indexed.setWinner (h : s.Indexed) (t a c : PyStr) : (s.setWinner t a c).Indexed :=
  ⟨h.registered, h.inTable, h.hashes⟩

theorem Indexed.settle (h : s.Indexed) (eventType : PyStr) (args : EventArgs) :
    (s.settle (s.appendEvent eventType args)).2.Indexed := by
  cases called : s.appendEvent eventType args with
  | error x => exact h
  | ok r => exact h.appendEvent called

theorem Indexed.step (h : s.Indexed) (call : Call) : (s.step call).Indexed := by
  cases call with
  | appendEvent eventType args => exact h.settle eventType args
  | promoteWinner t a c p =>
    simp only [DeliveryLedger.step, perform, promoteWinner]
    split_ifs
    · exact h
    · exact (h.setWinner t a c).settle _ _
  | sealDelivery t a p =>
    simp only [DeliveryLedger.step, perform, sealDelivery]
    split
    · exact h
    · exact h.settle _ _

/-! ## The fence -/

/-- The chain holds the promotion of a candidate and of no other candidate of that attempt. -/
def SolePromotion (s : DeliveryLedger) (t a c : PyStr) : Prop :=
  (∃ e ∈ s.events, e.Promotes t a c) ∧ ∀ e ∈ s.events, ∀ c', e.Promotes t a c' → c' = c

/-- The chain has caught up with the fence. -/
def Fenced (s : DeliveryLedger) : Prop :=
  ∀ t a c, s.winner.get? (t, a) = some c → s.SolePromotion t a c

/-- What the winner fence promises of one call: a promotion that raises changes neither the fence
nor the chain, and a delivery is sealed only after its promotion. -/
def FenceLaw (s : DeliveryLedger) : Call → Prop
  | .appendEvent _ _ => True
  | .promoteWinner t a c p => ∀ x, (s.promoteWinner t a c p).1 = .error x →
      (s.promoteWinner t a c p).2.events = s.events ∧
        (s.promoteWinner t a c p).2.winner = s.winner
  | .sealDelivery t a p => ∀ e, (s.sealDelivery t a p).1 = .ok e →
      ∃ c, s.winner.get? (t, a) = some c ∧ s.SolePromotion t a c

/-- The promotions that `append_event` accepts once the fence is written: the required arguments are
there, the texts can be encoded, no other event has the same event id, and no other candidate has a
promotion in the chain. -/
structure Promotable (s : DeliveryLedger) (t a c p : PyStr) : Prop where
  required : t ≠ [] ∧ a ≠ [] ∧ p ≠ []
  encodable : ∀ n, .surrogate n ∉ t ∧ .surrogate n ∉ a ∧ .surrogate n ∉ c
  encodableEvent : (∀ e ∈ s.events, e.Promotes t a c → e.metadata.fields ≠ []) →
    ∀ n, .surrogate n ∉ p ∧ .surrogate n ∉ s.repository
  noCollision : ∀ e ∈ s.events, ∀ b b', canonical e.identity = .ok b →
    canonical (idMaterial .winnerPromoted t a (some c) .empty) = .ok b' →
    Sha256.digest b = Sha256.digest b' → b = b'
  noOther : ∀ e ∈ s.events, ∀ c', e.Promotes t a c' → c' = c

/-- The calls after which the chain still keeps up with the fence: a promotion that writes a new
fence is promotable, and a `WINNER_PROMOTED` event that is appended directly, past the checks of its
arguments, is not for another candidate than the fence. -/
def Admitted (s : DeliveryLedger) : Call → Prop
  | .appendEvent eventType args => ∀ c w, checkArgs eventType args = .ok .winnerPromoted →
      (∀ n, ¬ (s.draft .winnerPromoted [] args).material.HasSurrogate n) →
      args.candidateId = some c → s.winner.get? (args.taskId, args.attemptId) = some w → w = c
  | .promoteWinner t a c p => s.winner.get? (t, a) = none → s.Promotable t a c p
  | .sealDelivery _ _ _ => True

theorem knownType_name (t : EventType) : knownType t.name = .ok t := by
  rw [knownType, EventType.ofName?_name]

theorem checkArgs_promotionArgs {t a c p : PyStr} (required : t ≠ [] ∧ a ≠ [] ∧ p ≠ []) :
    checkArgs "WINNER_PROMOTED" (promotionArgs t a c p) = .ok .winnerPromoted := by
  have present : requireArgs (promotionArgs t a c p) = .ok () := by
    refine if_neg ?_
    rw [not_or, not_or]
    exact required
  exact bind_ok.2 ⟨_, knownType_name .winnerPromoted, bind_ok.2 ⟨_, present, rfl⟩⟩

theorem name_of_checkArgs {t : EventType} (h : checkArgs eventType args = .ok t) :
    t.name = eventType := by
  obtain ⟨t', ht', h⟩ := bind_ok.1 h
  obtain ⟨-, -, h⟩ := bind_ok.1 h
  obtain ⟨-, -, h⟩ := bind_ok.1 h
  obtain ⟨-, -, h⟩ := bind_ok.1 h
  obtain ⟨-, -, h⟩ := bind_ok.1 h
  cases h
  unfold knownType at ht'
  split at ht'
  · next t' found =>
    cases ht'
    exact EventType.name_of_ofName? found
  · cases ht'

theorem hasSurrogate_promotion (h : s.Indexed) {t a c p id : PyStr} {n : Fin 2048}
    (encodable : .surrogate n ∉ t ∧ .surrogate n ∉ a ∧ .surrogate n ∉ c)
    (encodableEvent : .surrogate n ∉ p ∧ .surrogate n ∉ s.repository)
    (encodableId : .surrogate n ∉ id) :
    ¬ (s.draft .winnerPromoted id (promotionArgs t a c p)).material.HasSurrogate n := by
  have prev : .surrogate n ∉ (s.draft .winnerPromoted id (promotionArgs t a c p)).prevEventHash := by
    simp only [draft]
    split
    · next e last => exact h.hashes e (List.mem_of_getLast? last) n
    · exact Json.surrogate_notMem_ofChars n _
  simp only [LedgerEvent.material, LedgerEvent.materialFields, draft, promotionArgs, Json.HasSurrogate,
    Json.FieldsHaveSurrogate, Json.FieldHasSurrogate, Json.optStr, JsonObject.toJson, JsonObject.empty,
    Json.ItemsHaveSurrogate, List.map_nil, Json.surrogate_notMem_ofChars, encodable,
    encodableEvent, encodableId, or_false, false_or, LEDGER_SCHEMA, EventType.name] at prev ⊢
  exact prev

theorem Promotable.appendEvent (h : s.Indexed) {t a c p : PyStr} (promotable : s.Promotable t a c p) :
    ∃ e s', (s.setWinner t a c).appendEvent "WINNER_PROMOTED" (promotionArgs t a c p) =
      .ok (e, s') ∧ e.Promotes t a c := by
  obtain ⟨b, hb⟩ : ∃ b, canonical (idMaterial .winnerPromoted t a (some c) .empty) = .ok b := by
    rw [exists_canonical_iff]
    intro n
    simp [idMaterial, Json.HasSurrogate, Json.FieldsHaveSurrogate, Json.FieldHasSurrogate, Json.optStr,
      JsonObject.toJson, JsonObject.empty, Json.surrogate_notMem_ofChars, promotable.encodable n,
      LEDGER_SCHEMA, EventType.name]
  have hid := (eventIdOf_eq_ok_iff (t := .winnerPromoted) (a := promotionArgs t a c p)).2
    ⟨b, hb, rfl⟩
  have checked := checkArgs_promotionArgs (c := c) promotable.required
  cases known : s.byId.get? (PyStr.ofChars (Sha256.hexdigest b)) with
  | some existing =>
    obtain ⟨mem, b', hb', same⟩ := h.registered _ _ known
    have digests := Sha256.hexdigest_inj.1 (PyStr.ofChars_injective same)
    have texts := promotable.noCollision existing mem b' b hb' hb digests.symm
    subst texts
    obtain ⟨hType, hTask, hAttempt, hCandidate, hMetadata⟩ := idMaterial_inj hb' hb
    refine ⟨existing, s.setWinner t a c, appendEvent_eq_ok_iff.2 ⟨_, _, checked, hid, .inl
      ⟨known, hType, ?_, rfl⟩⟩, hType, hTask, hAttempt, hCandidate⟩
    rw [JsonObject.toJson, hMetadata.2 rfl]
    rfl
  | none =>
    have absent : ∀ e ∈ s.events, e.Promotes t a c → e.metadata.fields ≠ [] := by
      rintro e mem ⟨hType, hTask, hAttempt, hCandidate⟩ nil
      obtain ⟨found, b', hb', hid'⟩ := h.inTable e mem
      have hMetadata : e.metadata = .empty := JsonObject.ext nil
      rw [LedgerEvent.identity, hType, hTask, hAttempt, hCandidate, hMetadata, hb] at hb'
      cases hb'
      rw [hid', known] at found
      cases found
    have encodableId := surrogate_notMem_hexdigest b
    obtain ⟨b', hb'⟩ := (exists_canonical_iff _).2 fun n => hasSurrogate_promotion h
      (promotable.encodable n) (promotable.encodableEvent absent n) (encodableId n)
    exact ⟨_, _, appendEvent_eq_ok_iff.2 ⟨_, _, checked, hid, .inr
      ⟨known, _, bind_ok.2 ⟨b', hb', rfl⟩, rfl, rfl⟩⟩, rfl, rfl, rfl, rfl⟩

theorem hasSurrogate_of_noEventId {n : Fin 2048}
    (h : ({ e with eventId := [] } : LedgerEvent).material.HasSurrogate n) :
    e.material.HasSurrogate n :=
  Or.imp id (Or.imp id (Or.imp id (Or.imp (Or.imp id fun h => absurd h List.not_mem_nil) id))) h

/-- A call whose arguments are accepted appends to an empty chain, when its event can be encoded. -/
theorem exists_appendEvent (h : s.Indexed) (empty : s.events = []) (eventType : PyStr) (args : EventArgs)
    {t : EventType} {task attempt producer : String} {c : Option PyStr} {m : JsonObject}
    (given : args = { taskId := task, attemptId := attempt, producer, candidateId := c, metadata := m })
    (checked : checkArgs eventType args = .ok t)
    (plain : ∀ n, .surrogate n ∉ s.repository ∧ ¬ (Json.optStr c).HasSurrogate n ∧ ¬ m.toJson.HasSurrogate n) :
    ∃ b b' e, e = { s.draft t (PyStr.ofChars (Sha256.hexdigest b)) args with
        eventHash := PyStr.ofChars (Sha256.hexdigest b') } ∧
      s.appendEvent eventType args = .ok (e, s.push e) ∧ ∀ n, ¬ e.record.HasSurrogate n := by
  have typed (n) : .surrogate n ∉ t.name := by
    cases t <;> exact Json.surrogate_notMem_ofChars n _
  have encodable (id hash n) : ¬ ({ s.draft t (PyStr.ofChars id) args with
      eventHash := PyStr.ofChars hash } : LedgerEvent).record.HasSurrogate n := by
    simp only [given, LedgerEvent.record, LedgerEvent.materialFields, draft, empty, List.getLast?_nil, ZERO_HASH,
      LEDGER_SCHEMA, Json.HasSurrogate, List.cons_append, List.nil_append, Json.FieldsHaveSurrogate,
      Json.FieldHasSurrogate, List.map_nil, Json.ItemsHaveSurrogate, Json.surrogate_notMem_ofChars, typed, plain n,
      show Json.optStr none = .null from rfl, or_false, not_false_iff]
  obtain ⟨b, hb⟩ := (exists_canonical_iff (idMaterial t args.taskId args.attemptId args.candidateId args.metadata)).2
    fun n => by
      simp only [given, idMaterial, LEDGER_SCHEMA, Json.HasSurrogate, Json.FieldsHaveSurrogate, Json.FieldHasSurrogate,
        Json.surrogate_notMem_ofChars, typed, plain n, or_false, not_false_iff]
  obtain ⟨b', hb'⟩ := (exists_canonical_iff (s.draft t (PyStr.ofChars (Sha256.hexdigest b)) args).material).2
    fun n held => encodable (Sha256.hexdigest b) [] n (by
      obtain ⟨f, mem, held⟩ := (Json.fieldsHaveSurrogate_iff ..).1 held
      exact (Json.fieldsHaveSurrogate_iff ..).2 ⟨f, List.mem_append_left _ mem, held⟩)
  refine ⟨b, _, _, rfl, appendEvent_eq_ok_iff.2 ⟨t, _, checked, eventIdOf_eq_ok_iff.2 ⟨b, hb, rfl⟩,
    .inr ⟨?_, _, bind_ok.2 ⟨b', hb', rfl⟩, rfl, rfl⟩⟩, encodable _ _⟩
  by_contra known
  obtain ⟨e, found⟩ := Option.ne_none_iff_exists'.1 known
  exact List.not_mem_nil (empty ▸ (h.registered _ e found).1)

theorem appendEvent_events (h : s.Indexed) (called : s.appendEvent eventType args = .ok (e, s')) :
    s'.winner = s.winner ∧ e ∈ s'.events ∧
      (s'.events = s.events ∨ s'.events = s.events ++ [e] ∧ e.candidateId = args.candidateId ∧
        e.taskId = args.taskId ∧ e.attemptId = args.attemptId ∧
        checkArgs eventType args = .ok e.eventType ∧
        ∀ n, ¬ (s.draft e.eventType [] args).material.HasSurrogate n) := by
  obtain ⟨t, id, checked, hid, ⟨known, -, -, rfl⟩ | ⟨-, hash, hhash, rfl, rfl⟩⟩ :=
    appendEvent_eq_ok_iff.1 called
  · exact ⟨rfl, (h.registered _ _ known).1, .inl rfl⟩
  · refine ⟨rfl, List.mem_append_right _ List.mem_cons_self, .inr ⟨rfl, rfl, rfl, rfl, checked, ?_⟩⟩
    obtain ⟨b, hb, -⟩ := bind_ok.1 hhash
    exact fun n held => (exists_canonical_iff _).1 ⟨b, hb⟩ n (hasSurrogate_of_noEventId held)

theorem Fenced.append (fenced : s.Fenced) (winner : s'.winner = s.winner)
    (events : s'.events = s.events ++ [e])
    (same : ∀ t a c w, e.Promotes t a c → s.winner.get? (t, a) = some w → w = c) : s'.Fenced := by
  intro t a c hw
  rw [winner] at hw
  obtain ⟨⟨e', mem, promotes⟩, sole⟩ := fenced t a c hw
  rw [SolePromotion, events]
  refine ⟨⟨e', List.mem_append_left _ mem, promotes⟩, fun e'' mem'' c' promotes' => ?_⟩
  rcases List.mem_append.1 mem'' with old | new
  · exact sole e'' old c' promotes'
  · rw [List.mem_singleton.1 new] at promotes'
    exact (same t a c' c promotes' hw).symm

/-- A call of `append_event` that does not append past the fence keeps the chain up with it. -/
theorem Fenced.settle (h : s.Indexed) (fenced : s.Fenced)
    (admitted : s.Admitted (.appendEvent eventType args)) :
    (s.settle (s.appendEvent eventType args)).2.Fenced := by
  cases called : s.appendEvent eventType args with
  | error x => exact fenced
  | ok r =>
    obtain ⟨e, s'⟩ := r
    obtain ⟨winner, -, events | ⟨events, hCandidate, hTask, hAttempt, checked, encodable⟩⟩ :=
      appendEvent_events h called
    · intro t a c hw
      rw [DeliveryLedger.settle, winner] at hw
      rw [DeliveryLedger.settle, SolePromotion, events]
      exact fenced t a c hw
    · refine fenced.append winner events ?_
      rintro t a c w ⟨hType, rfl, rfl, hc⟩ hw
      rw [hType] at checked encodable
      rw [hTask, hAttempt] at hw
      exact admitted c w checked encodable (hCandidate ▸ hc) hw

theorem admitted_seal (s : DeliveryLedger) (args : EventArgs) :
    s.Admitted (.appendEvent "DELIVERY_SEALED" args) := by
  intro c w checked
  exact absurd (name_of_checkArgs checked) (by decide)

theorem promoteWinner_of_fence {t a c : PyStr} (p : PyStr) (hw : s.winner.get? (t, a) = some c) :
    s.promoteWinner t a c p =
      s.settle (s.appendEvent "WINNER_PROMOTED" (promotionArgs t a c p)) := by
  have same : s.setWinner t a c = s := by
    rw [setWinner, Dict.set_eq_self hw]
  rw [promoteWinner, if_neg, same]
  rintro ⟨w, found, other⟩
  rw [hw] at found
  cases found
  exact other rfl

theorem promoteWinner_of_other {t a c w : PyStr} (p : PyStr)
    (hw : s.winner.get? (t, a) = some w) (other : w ≠ c) :
    s.promoteWinner t a c p =
      (.error (.ledgerError "winner_fence" "a different candidate is already promoted"), s) := by
  rw [promoteWinner, if_pos ⟨w, hw, other⟩]

theorem promoteWinner_of_promotable (h : s.Indexed) (fenced : s.Fenced) {t a c p : PyStr}
    (hw : s.winner.get? (t, a) = none) (promotable : s.Promotable t a c p) :
    ∃ e s', s.promoteWinner t a c p = (.ok e, s') ∧ s'.Fenced := by
  obtain ⟨e, s', called, promotes⟩ := promotable.appendEvent h
  refine ⟨e, s', ?_, ?_⟩
  · simp only [promoteWinner, called, settle]
    rw [if_neg]
    rintro ⟨w, found, -⟩
    rw [hw] at found
    cases found
  · obtain ⟨winner, mem, events⟩ := appendEvent_events (h.setWinner t a c) called
    have old : ∀ e' ∈ s'.events, e' ∈ s.events ∨ e' = e := by
      intro e' mem'
      rcases events with events | ⟨events, -⟩ <;> rw [events] at mem'
      · exact .inl mem'
      · exact (List.mem_append.1 mem').imp_right List.mem_singleton.1
    have kept : ∀ e' ∈ s.events, e' ∈ s'.events := by
      intro e' mem'
      rcases events with events | ⟨events, -⟩ <;> rw [events]
      · exact mem'
      · exact List.mem_append_left _ mem'
    intro t' a' c' hw'
    rw [winner, setWinner, Dict.get?_set] at hw'
    split_ifs at hw' with key
    · obtain ⟨rfl, rfl⟩ := Prod.mk.inj key
      cases hw'
      refine ⟨⟨e, mem, promotes⟩, fun e' mem' c' promotes' => ?_⟩
      rcases old e' mem' with mem' | rfl
      · exact promotable.noOther e' mem' c' promotes'
      · exact Option.some.inj (promotes'.2.2.2.symm.trans promotes.2.2.2)
    · obtain ⟨⟨e', mem', promotes'⟩, sole⟩ := fenced t' a' c' hw'
      refine ⟨⟨e', kept e' mem', promotes'⟩, fun e'' mem'' c'' promotes'' => ?_⟩
      rcases old e'' mem'' with mem'' | rfl
      · exact sole e'' mem'' c'' promotes''
      · exact absurd (Prod.ext (promotes''.2.1.symm.trans promotes.2.1)
          (promotes''.2.2.1.symm.trans promotes.2.2.1)) key

/-! ## Runs -/

theorem Fenced.step (h : s.Indexed) (fenced : s.Fenced) (call : Call) (admitted : s.Admitted call) :
    (s.step call).Fenced := by
  cases call with
  | appendEvent eventType args => exact fenced.settle h admitted
  | promoteWinner t a c p =>
    rw [DeliveryLedger.step, perform]
    cases hw : s.winner.get? (t, a) with
    | none =>
      obtain ⟨e, s', called, fenced'⟩ := promoteWinner_of_promotable h fenced hw (admitted hw)
      rw [called]
      exact fenced'
    | some w =>
      by_cases other : w = c
      · subst other
        rw [promoteWinner_of_fence p hw]
        refine fenced.settle h fun c' w' _ _ hc hw' => ?_
        cases hc
        exact Option.some.inj (hw'.symm.trans hw)
      · rw [promoteWinner_of_other p hw other]
        exact fenced
  | sealDelivery t a p =>
    rw [DeliveryLedger.step, perform, sealDelivery]
    split
    · exact fenced
    · exact fenced.settle h (admitted_seal s _)

theorem fenceLaw (h : s.Indexed) (fenced : s.Fenced) (call : Call) (admitted : s.Admitted call) :
    s.FenceLaw call := by
  cases call with
  | appendEvent eventType args => trivial
  | promoteWinner t a c p =>
    intro x raised
    cases hw : s.winner.get? (t, a) with
    | none =>
      obtain ⟨e, s', called, -⟩ := promoteWinner_of_promotable h fenced hw (admitted hw)
      rw [called] at raised
      cases raised
    | some w =>
      by_cases other : w = c
      · subst other
        rw [promoteWinner_of_fence p hw] at raised ⊢
        cases called : s.appendEvent "WINNER_PROMOTED" (promotionArgs t a w p) with
        | error y => exact ⟨rfl, rfl⟩
        | ok r =>
          rw [called] at raised
          cases raised
      · rw [promoteWinner_of_other p hw other]
        exact ⟨rfl, rfl⟩
  | sealDelivery t a p =>
    intro e sealed
    rw [sealDelivery] at sealed
    split at sealed
    · cases sealed
    · next w hw => exact ⟨w, hw, fenced t a w hw⟩

theorem new_indexed {repository : PyStr} (h : new repository = .ok s) : s.Indexed ∧ s.Fenced := by
  unfold new at h
  split_ifs at h
  cases h
  refine ⟨⟨?_, ?_, ?_⟩, ?_⟩
  · intro id e found
    cases found
  · intro e mem
    cases mem
  · intro e mem
    cases mem
  · intro t a c found
    cases found

/-- In a run of admitted calls every call obeys the law of the fence. -/
theorem along_fenceLaw {repository : PyStr} (h : new repository = .ok s) {calls : List Call}
    (admitted : Machine.Along step Admitted s calls) : Machine.Along step FenceLaw s calls :=
  admitted.imp_of_invariant (I := fun s => s.Indexed ∧ s.Fenced) (new_indexed h)
    (fun _ call inv admitted => ⟨inv.1.step call, inv.2.step inv.1 call admitted⟩)
    fun _ call inv admitted => fenceLaw inv.1 inv.2 call admitted

/-- A run that promotes a candidate and seals its delivery. -/
theorem along_fenceLaw_promote_seal :
    Machine.Along step FenceLaw ⟨"repo", [], .empty, .empty⟩
      [.promoteWinner "task" "a1" "c1" "loop", .sealDelivery "task" "a1" "loop"] := by
  refine along_fenceLaw (show new "repo" = .ok _ from rfl) ⟨fun _ => ?_, trivial, trivial⟩
  refine ⟨by decide, ?_, ?_, ?_, ?_⟩
  · exact fun n => ⟨Json.surrogate_notMem_ofChars n _, Json.surrogate_notMem_ofChars n _,
      Json.surrogate_notMem_ofChars n _⟩
  · exact fun _ n => ⟨Json.surrogate_notMem_ofChars n _, Json.surrogate_notMem_ofChars n _⟩
  · intro e mem
    cases mem
  · intro e mem
    cases mem

/-- A promotion without a producer raises after it has written the fence, and the delivery can then
be sealed although the chain is empty. -/
theorem not_fenceLaw_promote_without_producer :
    ¬ FenceLaw ⟨"repo", [], .empty, .empty⟩ (.promoteWinner "task" "a1" "c1" "") ∧
      ¬ FenceLaw (step ⟨"repo", [], .empty, .empty⟩ (.promoteWinner "task" "a1" "c1" ""))
        (.sealDelivery "task" "a1" "loop") := by
  constructor
  · intro law
    have kept := (law _ rfl).2
    have found := congrArg (fun d : Dict (PyStr × PyStr) PyStr => d.get? ("task", "a1")) kept
    revert found
    decide
  · intro law
    have indexed := (new_indexed (show new "repo" = .ok _ from rfl)).1.step (.promoteWinner "task" "a1" "c1" "")
    have fence : (step ⟨"repo", [], .empty, .empty⟩ (.promoteWinner "task" "a1" "c1" "")).winner.get? ("task", "a1") =
      some "c1" := by decide +kernel
    have named : (step ⟨"repo", [], .empty, .empty⟩ (.promoteWinner "task" "a1" "c1" "")).repository = "repo" := by
      decide +kernel
    have none : (step ⟨"repo", [], .empty, .empty⟩ (.promoteWinner "task" "a1" "c1" "")).events = [] :=
      List.length_eq_zero_iff.1 (by decide +kernel)
    generalize step ⟨"repo", [], .empty, .empty⟩ (.promoteWinner "task" "a1" "c1" "") = s at *
    obtain ⟨-, -, e, -, called, -⟩ := exists_appendEvent indexed none "DELIVERY_SEALED"
      { taskId := "task", attemptId := "a1", producer := "loop", candidateId := some "c1" } rfl (bind_ok.2 ⟨_, knownType_name .deliverySealed, rfl⟩) 
      fun n => ⟨named ▸ Json.surrogate_notMem_ofChars n _, Json.surrogate_notMem_ofChars n _, id⟩
    obtain ⟨c, -, ⟨e', mem, -⟩, -⟩ := law e (by rw [sealDelivery, fence]; exact congrArg (fun r => (settle s r).1) called)
    rw [none] at mem
    cases mem

end DeliveryLedger

end SimplicioFast
