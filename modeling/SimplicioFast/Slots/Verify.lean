import SimplicioFast.Slots.Executor

/-!
# Receipts that verify

`verify_receipt` accepts a receipt that was just made, unless an identifier of the envelope does not equal itself.  A
receipt that was stored comes back with two flags changed, and the digest that seals it is not that of what it says then.

`verify_receipt` raises what `validate_envelope` raises and it does not catch: for a budget that is no object, and for
infinite numbers.
-/

namespace SimplicioFast

namespace Slots

open Crash

variable {c : Conversions} {eq : Json → Json → Bool} {receipt envelope m : JsonObject} {env : Envelope} {root : List PyStr}
  {call : Call} {measures : Measures} {s : Store} {g : Given} {e : SlotRaised} {d d' : PyStr} {v : Json}

theorem isText_iff : isText d v = true ↔ v = .str d := by
  cases v with
  | str t => simp [isText]
  | _ => simp [isText]

/-! ## What is accepted -/

/-- The receipt says that the work was done by itself. -/
structure Claims (m : JsonObject) : Prop where
  status : (m.get? "status").any (isText "VERIFIED") = true
  authority : (m.get? "completion_authority").any (isText "LOOP_ONLY") = true

/-- The receipt carries the values of the envelope. -/
def Carries (eq : Json → Json → Bool) (env : Envelope) (m : JsonObject) : Prop :=
  ∀ f ∈ env.compared, eq ((m.get? f.1).getD .null) f.2 = true

/-- The receipt is sealed with the digest of what it says. -/
def Sealed (m : JsonObject) : Prop :=
  m.get? "receipt_digest" = some (.str (digest (m.erase "receipt_digest").toJson))

theorem checkReceipt_eq_ok_iff : checkReceipt c eq receipt envelope = .ok (true, "ok") ↔
    ∃ env, validateEnvelope c envelope = .ok env ∧ Sealed receipt ∧ Carries eq env receipt ∧ Claims receipt := by
  unfold checkReceipt
  rw [bind_ok]
  refine exists_congr fun env => and_congr_right fun _ => ?_
  unfold Sealed
  cases receipt.get? "receipt_digest" with
  | none => exact iff_of_false (fun same => by cases same) fun h => by cases h.1
  | some supplied =>
    dsimp only
    rw [Option.some.injEq]
    by_cases sealed_ : isText (digest (receipt.erase "receipt_digest").toJson) supplied = true
    · rw [if_neg (ne_false_of_eq_true sealed_), and_iff_right (isText_iff.1 sealed_)]
      cases found : env.compared.find? fun f => !eq ((receipt.get? f.1).getD .null) f.2 with
      | some f =>
        have differs := List.find?_some found
        refine iff_of_false (fun same => by cases same) fun h => ?_
        rw [h.1 f (List.mem_of_find?_eq_some found)] at differs
        cases differs
      | none =>
        have carries : Carries eq env receipt := fun f mem => by
          simpa using List.find?_eq_none.1 found f mem
        rw [and_iff_right carries]
        dsimp only
        split
        · rename_i both
          rw [Bool.and_eq_true] at both
          exact iff_of_true rfl ⟨both.1, both.2⟩
        · rename_i both
          refine iff_of_false (fun same => by cases same) fun h => both ?_
          rw [h.status, h.authority]
          rfl
    · rw [if_pos (Bool.eq_false_iff.2 sealed_)]
      refine iff_of_false (fun same => by cases same) fun h => sealed_ ?_
      exact isText_iff.2 h.1

theorem verifyReceipt_eq_ok_iff : verifyReceipt c eq receipt envelope = .ok (true, "ok") ↔
    ∃ env, validateEnvelope c envelope = .ok env ∧ Sealed receipt ∧ Carries eq env receipt ∧ Claims receipt := by
  rw [← checkReceipt_eq_ok_iff]
  unfold verifyReceipt
  split
  · rename_i verdict checked
    rw [checked]
  · rename_i e checked
    rw [checked]
    refine iff_of_false ?_ fun same => by cases same
    split <;> exact fun same => by cases same

/-! ## Receipts that were just made -/

theorem erase_sealed (absent : m.get? "receipt_digest" = none) : (sealed m).erase "receipt_digest" = m :=
  JsonObject.erase_set_of_none absent (Json.distinctKeys_str _)

theorem sealed_sealed (absent : m.get? "receipt_digest" = none) : Sealed (sealed m) := by
  rw [Sealed, erase_sealed absent, sealed, JsonObject.get?_set, if_pos rfl]

theorem get?_of_mem_compared (x : Execution) : ∀ f ∈ x.env.compared, (sealed x.unsigned).get? f.1 = some f.2 := by
  intro f mem
  simp only [Envelope.compared, List.mem_cons, List.not_mem_nil, or_false] at mem
  rcases mem with rfl | rfl | rfl | rfl | rfl | rfl | rfl <;> rfl

theorem absent_unsigned (x : Execution) : x.unsigned.get? "receipt_digest" = none := rfl

theorem claims_sealed (x : Execution) : Claims (sealed x.unsigned) := ⟨rfl, rfl⟩

/-- The identifiers of the envelope equal themselves. -/
def EqualsItself (eq : Json → Json → Bool) (env : Envelope) : Prop :=
  ∀ i ∈ [env.runId, env.slotId, env.issueId, env.commit, env.fence], eq i.value i.value = true

/-- Texts and integers equal themselves. -/
structure Reflexive (eq : Json → Json → Bool) : Prop where
  str : ∀ t, eq (.str t) (.str t) = true
  int : ∀ n, eq (.int n) (.int n) = true

theorem carries_sealed_iff (reflexive : Reflexive eq) (x : Execution) :
    Carries eq x.env (sealed x.unsigned) ↔ EqualsItself eq x.env := by
  have each : Carries eq x.env (sealed x.unsigned) ↔ ∀ f ∈ x.env.compared, eq f.2 f.2 = true :=
    forall₂_congr fun f mem => by rw [get?_of_mem_compared x f mem, Option.getD_some]
  rw [each]
  simp [Envelope.compared, EqualsItself, reflexive.str, reflexive.int]

/-! ## Receipts that were stored -/

theorem get?_replayed_of_ne {k : PyStr} (hit : k ≠ ("cache_hit")) (duplicate : k ≠ ("duplicate_dispatch")) :
    (replayed m).get? k = m.get? k := by
  rw [replayed, JsonObject.get?_set, if_neg duplicate, JsonObject.get?_set, if_neg hit]

theorem carries_replayed : Carries eq env (replayed m) ↔ Carries eq env m := by
  have others : ∀ k ∈ (["run_id", "slot_id", "issue_id", "commit", "generation", "fence", "idempotency_key"] : List PyStr),
      k ≠ ("cache_hit") ∧ k ≠ ("duplicate_dispatch") := by decide
  refine forall₂_congr fun f mem => ?_
  have other := others f.1 (List.mem_map_of_mem mem)
  rw [get?_replayed_of_ne other.1 other.2]

theorem claims_replayed : Claims (replayed m) ↔ Claims m := by
  have status : (replayed m).get? "status" = m.get? "status" := get?_replayed_of_ne (by decide) (by decide)
  have authority : (replayed m).get? "completion_authority" = m.get? "completion_authority" :=
    get?_replayed_of_ne (by decide) (by decide)
  constructor
  · rintro ⟨verified, only⟩
    exact ⟨status ▸ verified, authority ▸ only⟩
  · rintro ⟨verified, only⟩
    exact ⟨status.symm ▸ verified, authority.symm ▸ only⟩

/-- The digest of the receipt is the same when the two flags are set. -/
def Unchanged (m : JsonObject) : Prop :=
  digest ((replayed m).erase "receipt_digest").toJson = digest (m.erase "receipt_digest").toJson

theorem sealed_replayed_iff (seals : Sealed m) : Sealed (replayed m) ↔ Unchanged m := by
  have same : (replayed m).get? "receipt_digest" = m.get? "receipt_digest" :=
    get?_replayed_of_ne (by decide) (by decide)
  rw [Sealed, same, show m.get? "receipt_digest" = _ from seals, Option.some.injEq, Json.str.injEq]
  exact eq_comm

theorem toJson_of_ofJson? (found : JsonObject.ofJson? v = some m) : v = m.toJson := by
  unfold JsonObject.ofJson? at found
  split at found
  · split at found
    · cases found
      rfl
    · cases found
  · cases found

theorem orCaught_eq_ok_iff {α : Type} {o : Option α} {a : α} : orCaught o = .ok a ↔ o = some a := by
  cases o with
  | none => simp [orCaught]
  | some b => simp [orCaught]

theorem readReceipt_eq_ok (lawful : c.Lawful) {key : PyStr} {b : Bytes} (read : readReceipt c key b = .ok receipt) :
    ∃ m, (PyStr.decode b).bind Json.loads = some m.toJson ∧ Sealed m ∧ receipt = replayed m := by
  obtain ⟨value, parsed, read⟩ := bind_ok.1 read
  obtain ⟨fields, listed, read⟩ := bind_ok.1 read
  obtain ⟨⟨⟩, seals, read⟩ := bind_ok.1 read
  obtain ⟨m, object, read⟩ := bind_ok.1 read
  obtain rfl := Except.ok.inj read
  obtain rfl := toJson_of_ofJson? (orCaught_eq_ok_iff.1 object)
  obtain rfl : m = fields := Option.some.inj ((lawful.dict m).symm.trans (orCaught_eq_ok_iff.1 listed))
  refine ⟨m, orCaught_eq_ok_iff.1 parsed, ?_, rfl⟩
  unfold require at seals
  split at seals
  · rename_i text
    have supplied := isText_iff.1 text
    unfold Sealed
    cases there : m.get? "receipt_digest" with
    | none =>
      rw [there, Option.getD_none, Json.str.injEq] at supplied
      exact absurd supplied.symm (digest_ne_nil _)
    | some given =>
      rw [there, Option.getD_some] at supplied
      rw [supplied]
  · cases seals

/-! ## Receipts that are returned -/

theorem record_eq_ok {fs : FileSystem} (ran : (record root env m fs).result = .ok receipt) : receipt = m := by
  obtain ⟨⟨⟩, -, ran⟩ := Prog.result_bind_eq_ok_iff.1 ran
  obtain ⟨⟨⟩, -, ran⟩ := Prog.result_bind_eq_ok_iff.1 ran
  obtain ⟨⟨⟩, -, ran⟩ := Prog.result_bind_eq_ok_iff.1 ran
  cases ran
  rfl

theorem lookup_of_absent (absent : s.fs.get? (receiptPath root env) = none) : lookup c root env s =
    ⟨[{ s with workersStarted := s.workersStarted + 1 }], { s with workersStarted := s.workersStarted + 1 },
      .ok none⟩ := by
  unfold lookup
  rw [absent]

theorem execute_eq_ok (ran : (execute c root call measures s).result = .ok receipt) :
    ∃ env, accept c call = .ok env ∧
      ((∃ b, s.fs.get? (receiptPath root env) = some (.file b) ∧ readReceipt c env.idempotencyKey b = .ok receipt) ∨
        s.fs.get? (receiptPath root env) = none ∧ ∃ x : Execution, x.env = env ∧ receipt = sealed x.unsigned) := by
  obtain ⟨env, accepted, ran⟩ := Prog.result_bind_eq_ok_iff.1 ran
  obtain ⟨found, looked, ran⟩ := Prog.result_bind_eq_ok_iff.1 ran
  refine ⟨env, accepted, ?_⟩
  have ran : (found.elim (onFiles (carryOut c root call env measures)) pure (lookup c root env s).last).result =
    .ok receipt := ran
  cases there : s.fs.get? (receiptPath root env) with
  | none =>
    rw [show Prog.read (fun _ => accept c call) s = ⟨[], s, accept c call⟩ from rfl, lookup_of_absent there] at looked
    cases looked
    rw [lookup_of_absent there] at ran
    obtain ⟨overlay, -, ran⟩ := Prog.result_bind_eq_ok_iff.1
      (show (carryOut c root call env measures s.fs).result = .ok receipt from ran)
    obtain ⟨progress, -, ran⟩ := Prog.result_bind_eq_ok_iff.1 ran
    exact .inr ⟨rfl, _, rfl, record_eq_ok ran⟩
  | some node =>
    have looked : (lookup c root env s).result = .ok found := looked
    unfold lookup at looked
    rw [there] at looked
    cases node with
    | dir => cases looked
    | file b =>
      dsimp only at looked
      cases read : readReceipt c env.idempotencyKey b with
      | error e =>
        rw [read] at looked
        cases looked
      | ok r =>
        rw [read] at looked
        cases looked
        cases ran
        exact .inl ⟨b, rfl, read⟩

/-- When the receipt that a call returns verifies: no receipt was stored and the identifiers of the envelope equal
themselves, or the stored receipt has the digest with the two flags set that it had before, and tells of the same
work. -/
def Verifiable (eq : Json → Json → Bool) (root : List PyStr) (fs : FileSystem) (env : Envelope) : Prop :=
  match fs.get? (receiptPath root env) with
  | some (.file b) => ∀ m : JsonObject, (PyStr.decode b).bind Json.loads = some m.toJson →
      Unchanged m ∧ Carries eq env m ∧ Claims m
  | _ => EqualsItself eq env

theorem envelope_of_accept (accepted : accept c call = .ok env) : validateEnvelope c call.envelope = .ok env := by
  obtain ⟨env', valid, accepted⟩ := bind_ok.1 accepted
  obtain ⟨⟨⟩, -, accepted⟩ := bind_ok.1 accepted
  cases accepted
  exact valid

theorem verifies_iff (lawful : c.Lawful) (reflexive : Reflexive eq)
    (ran : (execute c root call measures s).result = .ok receipt) :
    ∃ env, accept c call = .ok env ∧
      (verifyReceipt c eq receipt call.envelope = .ok (true, "ok") ↔ Verifiable eq root s.fs env) := by
  obtain ⟨env, accepted, returned⟩ := execute_eq_ok ran
  refine ⟨env, accepted, ?_⟩
  have valid := envelope_of_accept accepted
  have verdict : verifyReceipt c eq receipt call.envelope = .ok (true, "ok") ↔
      Sealed receipt ∧ Carries eq env receipt ∧ Claims receipt := by
    rw [verifyReceipt_eq_ok_iff]
    constructor
    · rintro ⟨env', valid', h⟩
      cases valid.symm.trans valid'
      exact h
    · exact fun h => ⟨env, valid, h⟩
  rw [verdict]
  unfold Verifiable
  rcases returned with ⟨b, there, read⟩ | ⟨absent, x, rfl, rfl⟩
  · obtain ⟨m, loaded, seals, rfl⟩ := readReceipt_eq_ok lawful read
    rw [sealed_replayed_iff seals, carries_replayed, claims_replayed, there]
    dsimp only
    constructor
    · intro h m' loaded'
      obtain rfl : m = m' := JsonObject.ext (Json.obj.inj (Option.some.inj (loaded.symm.trans loaded')))
      exact h
    · exact fun h => h m loaded
  · rw [absent, and_iff_right (sealed_sealed (absent_unsigned x)), and_iff_left (claims_sealed x)]
    exact carries_sealed_iff reflexive x

/-! ## Verdicts -/

/-- Every exception is one that `verify_receipt` catches. -/
def Catches {α : Type} (x : Except SlotRaised α) : Prop := ∀ e, x = .error e → e.isCaught = true

theorem Catches.bind {α β : Type} {x : Except SlotRaised α} {f : α → Except SlotRaised β} (h : Catches x)
    (rest : ∀ a, Catches (f a)) : Catches (x >>= f) := by
  intro e raised
  cases x with
  | error e' =>
    cases raised
    exact h _ rfl
  | ok a => exact rest a e raised

theorem catches_ok {α : Type} (a : α) : Catches (.ok a : Except SlotRaised α) := fun _ raised => by cases raised

theorem catches_require (b : Bool) (reasonCode detail : PyStr) : Catches (require b reasonCode detail) := by
  intro e raised
  unfold require at raised
  split at raised
  · cases raised
  · cases raised
    rfl

theorem catches_field (value : JsonObject) (k : PyStr) : Catches (field value k) := by
  intro e raised
  unfold field at raised
  split at raised
  · cases raised
  · cases raised
    rfl

theorem catches_given (value : JsonObject) : Catches (given value) := by
  unfold given
  refine (catches_require _ _ _).bind fun _ => (catches_field _ _).bind fun _ => (catches_field _ _).bind fun _ =>
    (catches_field _ _).bind fun _ => (catches_field _ _).bind fun _ => (catches_field _ _).bind fun _ => ?_
  exact (catches_field _ _).bind fun _ => (catches_field _ _).bind fun _ => (catches_field _ _).bind fun _ =>
    (catches_field _ _).bind fun _ => (catches_field _ _).bind fun _ => (catches_field _ _).bind fun _ =>
      (catches_field _ _).bind fun _ => catches_ok _

/-- The number of operations is looked up in something that is no object, or it is infinite. -/
def BudgetEscapes (c : Conversions) : Json → Prop
  | .obj fields => c.int ((Dict.find fields "max_operations").getD (.int 0)) = .error .overflowError
  | _ => True

/-- The envelope has all that it must have, and its generation is infinite, or it is not negative and the budget is no
object or allows infinitely many operations. -/
def Escapes (c : Conversions) (envelope : JsonObject) : Prop :=
  ∃ g, given envelope = .ok g ∧ (c.int g.generation.value = .error .overflowError ∨
    ∃ n, c.int g.generation.value = .ok n ∧ 0 ≤ n ∧ BudgetEscapes c g.budget.value)

theorem maxOperationsOf_escapes_iff (budget : Json) :
    (∃ e, maxOperationsOf c budget = .error e ∧ e.isCaught = false) ↔ BudgetEscapes c budget := by
  cases budget with
  | obj fields =>
    unfold BudgetEscapes maxOperationsOf intOf
    dsimp only
    cases c.int ((Dict.find fields "max_operations").getD (.int 0)) with
    | ok n => exact iff_of_false (fun ⟨e, raised, _⟩ => by cases raised) fun same => by cases same
    | error e =>
      cases e with
      | caught => exact iff_of_false (fun ⟨e, raised, caught⟩ => by cases raised; cases caught) fun same => by cases same
      | overflowError => exact iff_of_true ⟨_, rfl, rfl⟩ rfl
  | _ => exact iff_of_true ⟨_, rfl, rfl⟩ trivial

theorem admitGiven_escapes_iff : (∃ e, admitGiven c g = .error e ∧ e.isCaught = false) ↔
    c.int g.generation.value = .error .overflowError ∨
      ∃ n, c.int g.generation.value = .ok n ∧ 0 ≤ n ∧ BudgetEscapes c g.budget.value := by
  unfold admitGiven intOf
  cases c.int g.generation.value with
  | error e =>
    cases e with
    | overflowError => exact iff_of_true ⟨_, rfl, rfl⟩ (.inl rfl)
    | caught =>
      refine iff_of_false (fun ⟨e, raised, caught⟩ => by cases raised; cases caught) ?_
      rintro (same | ⟨n, same, -⟩) <;> cases same
  | ok n =>
    have positive : (∃ n', (.ok n : Except IntRaised ℤ) = .ok n' ∧ 0 ≤ n' ∧ BudgetEscapes c g.budget.value) ↔
        0 ≤ n ∧ BudgetEscapes c g.budget.value :=
      ⟨fun ⟨_, same, h⟩ => by cases same; exact h, fun h => ⟨n, rfl, h⟩⟩
    rw [positive, or_iff_right (by simp), ← maxOperationsOf_escapes_iff]
    show (∃ e, (if _ : n < 0 then _ else _) = _ ∧ _) ↔ _
    split
    · rename_i negative
      exact iff_of_false (fun ⟨e, raised, caught⟩ => by cases raised; cases caught) fun h => absurd h.1 (not_le.2 negative)
    · rename_i nonneg
      rw [and_iff_right (not_lt.1 nonneg)]
      cases maxOperationsOf c g.budget.value with
      | error e =>
        constructor
        · rintro ⟨e', raised, caught⟩
          cases raised
          exact ⟨_, rfl, caught⟩
        · rintro ⟨e', raised, caught⟩
          cases raised
          exact ⟨_, rfl, caught⟩
      | ok m =>
        refine iff_of_false ?_ fun ⟨e, raised, _⟩ => by cases raised
        rintro ⟨e, raised, caught⟩
        have raised : (if none : m ≤ 0 then (.error invalidBudget : Except SlotRaised Envelope) else _) = .error e := raised
        split at raised
        · cases raised
          cases caught
        · have caught' := (catches_require _ _ _).bind (fun _ => catches_ok _) e raised
          rw [caught] at caught'
          cases caught'

theorem validateEnvelope_escapes_iff : (∃ e, validateEnvelope c envelope = .error e ∧ e.isCaught = false) ↔
    Escapes c envelope := by
  unfold validateEnvelope Escapes
  cases listed : given envelope with
  | error e =>
    have caught := catches_given envelope e listed
    refine iff_of_false ?_ fun ⟨g, same, _⟩ => by cases same
    rintro ⟨e', raised, escapes⟩
    cases raised
    rw [caught] at escapes
    cases escapes
  | ok g =>
    refine (admitGiven_escapes_iff (g := g)).trans ⟨fun h => ⟨g, rfl, h⟩, ?_⟩
    rintro ⟨g', same, h⟩
    cases same
    exact h

/-- `verify_receipt` returns unless the envelope makes `validate_envelope` raise something else. -/
theorem exists_verdict_iff : (∃ verdict, verifyReceipt c eq receipt envelope = .ok verdict) ↔ ¬ Escapes c envelope := by
  rw [← validateEnvelope_escapes_iff]
  unfold verifyReceipt
  have rest (env : Envelope) (e : SlotRaised) (valid : validateEnvelope c envelope = .ok env)
      (raised : checkReceipt c eq receipt envelope = .error e) : e.isCaught = true := by
    unfold checkReceipt at raised
    rw [valid] at raised
    simp only [bind, Except.bind] at raised
    split at raised
    · cases raised
      rfl
    · split at raised
      · cases raised
      · split at raised
        · cases raised
        · split at raised <;> cases raised
  cases valid : validateEnvelope c envelope with
  | error e =>
    have checked : checkReceipt c eq receipt envelope = .error e := by
      unfold checkReceipt
      rw [valid]
      rfl
    rw [checked]
    dsimp only
    cases caught : e.isCaught with
    | true =>
      refine iff_of_true ⟨_, rfl⟩ ?_
      rintro ⟨e', same, escapes⟩
      cases same
      rw [caught] at escapes
      cases escapes
    | false => exact iff_of_false (by rintro ⟨_, same⟩; cases same) fun h => h ⟨e, rfl, caught⟩
  | ok env =>
    refine iff_of_true ?_ (by rintro ⟨e, same, _⟩; cases same)
    cases checked : checkReceipt c eq receipt envelope with
    | ok verdict => exact ⟨verdict, rfl⟩
    | error e =>
      dsimp only
      rw [if_pos (rest env e valid checked)]
      exact ⟨_, rfl⟩

/-! ## Sequences of calls -/

end Slots

end SimplicioFast
