import SimplicioFast.Lib.Sha256Eval
import SimplicioFast.Slots.Verify

/-!
# Receipts that are read back

A receipt is stored as the text of its sealed values.  When no text inside it holds a pair of surrogates as two
characters, that text is read back as the same values in the order of their keys, under the same digest, and a call that
finds it returns it with the two flags set.
-/

namespace SimplicioFast

namespace JsonObject

variable {m n : JsonObject}

theorem dumps_eq_of_get? (same : ∀ k, (m.get? k).map Json.sortKeys = (n.get? k).map Json.sortKeys) (a : Bool) :
    Json.dumps a m.toJson = Json.dumps a n.toJson :=
  (Json.same_obj_of_forall m.distinct.1 n.distinct.1 same).dumps_eq a

end JsonObject

namespace Slots

open Crash

variable {c : Conversions} {receipt m : JsonObject} {env : Envelope} {root : List PyStr} {call : Call} {measures : Measures}
  {key : PyStr}

theorem digest_sorted (m : JsonObject) (k : PyStr) : digest (m.sorted.erase k).toJson = digest (m.erase k).toJson := by
  have same : Json.dumps true (m.sorted.erase k).toJson = Json.dumps true (m.erase k).toJson := by
    refine JsonObject.dumps_eq_of_get? (fun k' => ?_) true
    rw [JsonObject.get?_erase, JsonObject.get?_erase]
    split
    · rfl
    · rw [JsonObject.get?_sorted, Option.map_map]
      exact congrArg (Option.map · _) (funext fun v => Json.sortKeys_sortKeys v)
  rw [digest, canonical, same]
  rfl

theorem sealed_sorted (seals : Sealed m) : Sealed m.sorted := by
  rw [Sealed, JsonObject.get?_sorted, show m.get? "receipt_digest" = _ from seals, digest_sorted]
  rfl

theorem readReceipt_receiptBytes (lawful : c.Lawful) (seals : Sealed m) (unpaired : m.toJson.Unpaired) :
    readReceipt c key (receiptBytes m) = .ok (replayed m.sorted) := by
  have decoded : PyStr.decode (receiptBytes m) = some (Json.dumps true m.toJson ++ [.scalar '\n']) :=
    Json.decode_encodeAscii_dumps _ _ (by decide)
  have loaded : Json.loads (Json.dumps true m.toJson ++ [.scalar '\n']) = some m.sorted.toJson :=
    Json.loads_dumps_obj m.distinct (.inr unpaired) (by decide)
  have parsed : (PyStr.decode (receiptBytes m)).bind Json.loads = some m.sorted.toJson := by
    rw [decoded, Option.bind_some, loaded]
  have supplied : m.sorted.get? "receipt_digest" = some (.str (digest (m.sorted.erase "receipt_digest").toJson)) :=
    sealed_sorted seals
  refine bind_ok.2 ⟨_, orCaught_eq_ok_iff.2 parsed, ?_⟩
  refine bind_ok.2 ⟨_, orCaught_eq_ok_iff.2 (lawful.dict _), ?_⟩
  refine bind_ok.2 ⟨⟨⟩, ?_, ?_⟩
  · rw [supplied, Option.getD_some, isText_iff.2 rfl]
    rfl
  · exact bind_ok.2 ⟨_, orCaught_eq_ok_iff.2 (JsonObject.ofJson?_toJson _), rfl⟩

/-! ## Plain envelopes -/

/-- No text of the envelope holds a pair of surrogates as two characters. -/
def Envelope.Plain (env : Envelope) : Prop :=
  ∀ i ∈ [env.runId, env.slotId, env.issueId, env.commit, env.fence, env.sourceHash, env.toolHash, env.configHash,
    env.contractHash], i.value.Unpaired

theorem unpaired_digest (v : Json) : (digest v).Unpaired := PyStr.unpaired_ofChars _

theorem unpaired_unsigned {x : Execution} (plain : x.env.Plain) (snapshot : x.snapshotId.Unpaired) :
    x.unsigned.toJson.Unpaired := by
  simp only [Envelope.Plain, List.forall_mem_cons] at plain
  obtain ⟨runId, slotId, issueId, commit, fence, sourceHash, toolHash, configHash, contractHash, -⟩ := plain
  have text (t : String) : (t : PyStr).Unpaired := PyStr.unpaired_ofChars _
  have optional (b : Bool) (t : String) : (if b then Json.null else .str (t : PyStr)).Unpaired := by
    cases b
    · exact text t
    · trivial
  have choice (b : Bool) (t u : String) : (if b then (t : PyStr) else u).Unpaired := by
    cases b
    · exact text u
    · exact text t
  have keys : ∀ k ∈ receiptKeys, k.Unpaired := by
    intro k mem
    simp only [receiptKeys, List.mem_cons, List.not_mem_nil, or_false] at mem
    rcases mem with rfl | rfl | rfl | rfl | rfl | rfl | rfl | rfl | rfl | rfl | rfl | rfl | rfl | rfl | rfl | rfl | rfl | rfl |
      rfl | rfl | rfl | rfl | rfl | rfl | rfl | rfl <;> exact text _
  have values : ∀ v ∈ x.values, v.Unpaired := by
    simp only [Execution.values, List.forall_mem_cons]
    have bindings : (Json.obj x.env.bindings).Unpaired :=
      ⟨⟨text _, sourceHash⟩, ⟨text _, toolHash⟩, ⟨text _, configHash⟩, ⟨text _, contractHash⟩, trivial⟩
    exact ⟨text _, runId, slotId, issueId, commit, trivial, fence, unpaired_digest _, snapshot, unpaired_digest _, trivial,
      trivial, trivial, trivial, trivial, trivial, trivial, choice _ _ _, optional _ _, choice _ _ _, optional _ _, text _,
      text _, trivial, text _, bindings, fun _ mem => absurd mem List.not_mem_nil⟩
  show Json.FieldsUnpaired (receiptKeys.zip x.values)
  refine Json.fieldsUnpaired_iff.2 fun f mem => Json.fieldUnpaired_iff.2 ?_
  obtain ⟨key, value⟩ := List.of_mem_zip mem
  exact ⟨keys _ key, values _ value⟩

theorem unpaired_sealed {x : Execution} (plain : x.env.Plain) (snapshot : x.snapshotId.Unpaired) :
    (sealed x.unsigned).toJson.Unpaired :=
  JsonObject.unpaired_set (unpaired_unsigned plain snapshot) _ (PyStr.unpaired_ofChars _) (unpaired_digest _)

/-! ## Receipts that are found again -/

variable {s : Store} {fs : FileSystem} {eq : Json → Json → Bool}

theorem get?_record (ran : (record root env m fs).result = .ok receipt) :
    (record root env m fs).last.get? (receiptPath root env) = some (.file (receiptBytes m)) := by
  have stored : Triple (fun _ => True) (fun _ => True) (record root env m) fun _ fs =>
      fs.get? (receiptPath root env) = some (.file (receiptBytes m)) := by
    refine Triple.bind (Q := fun _ _ => True) (fun fs _ _ => ⟨fun _ _ => trivial, trivial, fun _ _ => trivial⟩) fun _ => ?_
    refine Triple.bind (Q := fun _ fs => fs.content (temporaryPath root env) = some (receiptBytes m)) ?_ fun _ => ?_
    · refine FileSystem.triple_write fun fs _ _ _ => ⟨fun _ => trivial, ?_⟩
      rw [FileSystem.content_set_file, if_pos rfl]
    · refine Triple.bind (Q := fun _ fs => fs.get? (receiptPath root env) = some (.file (receiptBytes m))) ?_ fun _ =>
        Triple.pure fun _ _ there => there
      refine FileSystem.triple_rename fun fs b _ there found _ => ⟨trivial, ?_⟩
      cases there.symm.trans found
      exact Dict.get?_set_self _ _ _
  exact (stored fs trivial trivial).2.2 receipt ran

theorem execute_of_absent (measures : Measures) (accepted : accept c call = .ok env) (absent : s.fs.get? (receiptPath root env) = none) :
    (execute c root call measures s).result = (carryOut c root call env measures s.fs).result ∧
      (execute c root call measures s).last.fs = (carryOut c root call env measures s.fs).last := by
  have looked := lookup_of_absent (c := c) absent
  have read : Prog.read (ε := SlotRaised) (fun _ => accept c call) s = ⟨[], s, .ok env⟩ := by rw [← accepted]; rfl
  rw [execute, Prog.bind_of_ok (congrArg Run.result read), read,
    Prog.bind_of_ok (congrArg Run.result looked), looked]
  exact ⟨rfl, rfl⟩

theorem result_of_stored {b : Bytes} (accepted : accept c call = .ok env)
    (there : s.fs.get? (receiptPath root env) = some (.file b))
    (read : readReceipt c env.idempotencyKey b = .ok receipt) :
    (execute c root call measures s).result = .ok receipt := by
  have looked : lookup c root env s = ⟨[], s, .ok (some receipt)⟩ := by
    unfold lookup
    rw [there]
    dsimp only
    rw [read]
    rfl
  refine Prog.result_bind_eq_ok_iff.2 ⟨env, accepted, Prog.result_bind_eq_ok_iff.2 ⟨some receipt, ?_, rfl⟩⟩
  rw [show Prog.read (fun _ => accept c call) s = ⟨[], s, accept c call⟩ from rfl, looked]

theorem execute_again (measures' : Measures) (lawful : c.Lawful) (accepted : accept c call = .ok env) (plain : env.Plain)
    (snapshot : call.snapshot.snapshotId.Unpaired) (absent : s.fs.get? (receiptPath root env) = none)
    (ran : (execute c root call measures s).result = .ok receipt) :
    ∃ overlay fs progress, ((ordered call.writes).foldlM (writeOne env overlay) ⟨0, 0⟩ fs).result = .ok progress ∧
      receipt = sealed (execution call env progress measures).unsigned ∧
      (execute c root call measures' (execute c root call measures s).last).result = .ok (replayed receipt.sorted) := by
  obtain ⟨result, last⟩ := execute_of_absent measures accepted absent
  rw [result] at ran
  obtain ⟨overlay, prepared, ran⟩ := Prog.result_bind_eq_ok_iff.1 ran
  obtain ⟨progress, written, ran⟩ := Prog.result_bind_eq_ok_iff.1 ran
  have stored := get?_record ran
  obtain rfl := record_eq_ok ran
  refine ⟨_, _, _, written, rfl, result_of_stored accepted ?_
    (readReceipt_receiptBytes lawful (sealed_sealed (absent_unsigned _)) (unpaired_sealed plain snapshot))⟩
  rw [last, carryOut, Prog.bind_of_ok prepared, Prog.bind_of_ok written]
  exact stored

/-! ## Sequences of calls -/

/-- A call that was carried out: the files that it found, and what it gave. -/
structure Carried where
  call : Call
  before : FileSystem
  result : Except SlotRaised JsonObject

def session (c : Conversions) (root : List PyStr) : List (Call × Measures) → Store → List Carried
  | [], _ => []
  | (call, measures) :: calls, s => ⟨call, s.fs, (execute c root call measures s).result⟩ ::
      session c root calls (execute c root call measures s).last

/-- The receipt of the call is accepted together with its envelope. -/
def Accepted (c : Conversions) (eq : Json → Json → Bool) (t : Carried) : Prop :=
  ∀ receipt, t.result = .ok receipt → verifyReceipt c eq receipt t.call.envelope = .ok (true, "ok")

/-- When a receipt is returned, it verifies. -/
def Carried.Verifiable (c : Conversions) (eq : Json → Json → Bool) (root : List PyStr) (t : Carried) : Prop :=
  ∀ receipt env, t.result = .ok receipt → accept c t.call = .ok env → Slots.Verifiable eq root t.before env

theorem exists_of_mem_session {calls : List (Call × Measures)} {t : Carried} (mem : t ∈ session c root calls s) :
    ∃ measures s', t = ⟨t.call, s'.fs, (execute c root t.call measures s').result⟩ := by
  induction calls generalizing s with
  | nil => exact absurd mem List.not_mem_nil
  | cons first calls ih =>
    rcases List.mem_cons.1 mem with rfl | mem
    · exact ⟨_, _, rfl⟩
    · exact ih mem

theorem verifyReceipt_of_twice {measures' : Measures} {call' : Call}
    (accepted : ∀ t ∈ session c root [(call, measures), (call', measures')] s, Accepted c eq t)
    (ran : (execute c root call' measures' (execute c root call measures s).last).result = .ok receipt) :
    verifyReceipt c eq receipt call'.envelope = .ok (true, "ok") :=
  accepted _ (List.mem_cons_of_mem _ (List.mem_cons_self ..)) receipt ran

/-- All receipts that a sequence of calls returns are accepted exactly when none of them comes from an envelope with an
identifier that does not equal itself, or from a stored receipt whose digest changes with the flags; and `verify_receipt`
gives a verdict exactly when `validate_envelope` raises nothing that it does not catch. -/
theorem receipts_verify_iff (lawful : c.Lawful) (reflexive : Reflexive eq) :
    (∀ root calls s, (∀ t ∈ session c root calls s, Accepted c eq t) ↔ ∀ t ∈ session c root calls s, t.Verifiable c eq root) ∧
      ∀ receipt envelope, (∃ verdict, verifyReceipt c eq receipt envelope = .ok verdict) ↔ ¬ Escapes c envelope := by
  refine ⟨fun root calls s => forall₂_congr fun t mem => ?_, fun _ _ => exists_verdict_iff⟩
  obtain ⟨measures, s', same⟩ := exists_of_mem_session mem
  obtain ⟨call, before, result⟩ := t
  simp only [Carried.mk.injEq, true_and] at same
  obtain ⟨rfl, rfl⟩ := same
  constructor
  · intro accepted receipt env ran valid
    obtain ⟨env', valid', verdict⟩ := verifies_iff lawful reflexive ran
    cases valid.symm.trans valid'
    exact verdict.1 (accepted receipt ran)
  · intro verifiable receipt ran
    obtain ⟨env, valid, verdict⟩ := verifies_iff lawful reflexive ran
    exact verdict.2 (verifiable receipt env ran valid)

/-! ## A call and the same call -/

def sampleEnv : Envelope where
  runId := .ofText "r" (by decide)
  slotId := .ofText "s" (by decide)
  issueId := .ofText "i" ne_nil_i
  commit := .ofText "c" ne_nil_c
  generation := 1
  fence := .ofText "f" (by decide)
  sourceHash := .ofText "h" ne_nil_h
  toolHash := .ofText "h" ne_nil_h
  configHash := .ofText "h" ne_nil_h
  contractHash := .ofText "h" ne_nil_h
  maxOperations := 1
  generation_nonneg := by decide
  maxOperations_pos := Int.zero_lt_one

def sampleCall (writes : Dict PyStr Bytes) : Call where
  envelope := sampleEnv.document
  snapshot := ⟨"n", "h"⟩
  writes := writes

def sampleMeasures : Measures := ⟨.make false 0 1, .make false 0 1, 0⟩

def sampleStore : Store := ⟨⟨[([], .dir)], List.nodup_singleton _⟩, 0⟩

theorem accept_sampleCall (writes : Dict PyStr Bytes) : accept sampleConversions (sampleCall writes) = .ok sampleEnv :=
  bind_ok.2 ⟨_, validateEnvelope_document lawful_sampleConversions sampleEnv, rfl⟩

theorem plain_sampleEnv : sampleEnv.Plain := by
  simp only [Envelope.Plain, List.forall_mem_cons]
  exact ⟨PyStr.unpaired_ofChars _, PyStr.unpaired_ofChars _, PyStr.unpaired_ofChars _, PyStr.unpaired_ofChars _,
    PyStr.unpaired_ofChars _, PyStr.unpaired_ofChars _, PyStr.unpaired_ofChars _, PyStr.unpaired_ofChars _,
    PyStr.unpaired_ofChars _, fun _ mem => absurd mem List.not_mem_nil⟩

theorem absent_sampleStore : sampleStore.fs.get? (receiptPath [] sampleEnv) = none := rfl

theorem reflexive_pyEq : Reflexive Json.pyEq where
  str _ := decide_eq_true rfl
  int _ := decide_eq_true rfl

theorem receipts_verify_iff_sample :
    session sampleConversions [] [(sampleCall .empty, sampleMeasures)] sampleStore ≠ [] ∧
      ∀ t ∈ session sampleConversions [] [(sampleCall .empty, sampleMeasures)] sampleStore,
        Accepted sampleConversions Json.pyEq t := by
  refine ⟨List.cons_ne_nil _ _, ((receipts_verify_iff lawful_sampleConversions reflexive_pyEq).1 _ _ _).2 ?_⟩
  intro t mem _ env _ accepted
  cases List.mem_singleton.1 mem
  cases (accept_sampleCall .empty).symm.trans accepted
  have itself : EqualsItself Json.pyEq sampleEnv := by
    simp only [EqualsItself, List.forall_mem_cons]
    exact ⟨rfl, rfl, rfl, rfl, rfl, fun _ mem => absurd mem List.not_mem_nil⟩
  exact itself

/-- The same call again returns a receipt that is not accepted, and for a budget that is a list `verify_receipt` raises. -/
theorem not_receipts_verify : (¬ ∀ calls, ∀ t ∈ session sampleConversions [] calls sampleStore,
    Accepted sampleConversions Json.pyEq t) ∧
      ¬ ∀ receipt envelope, ∃ verdict, verifyReceipt sampleConversions Json.pyEq receipt envelope = .ok verdict := by
  constructor
  · intro accepted
    have ran : (execute sampleConversions [] (sampleCall .empty) sampleMeasures sampleStore).result.toOption.map
        (fun _ => ()) = some () := by decide +kernel
    obtain ⟨receipt, ran, -⟩ := Except.exists_of_map_toOption ran
    obtain ⟨overlay, fs, progress, written, rfl, again⟩ := execute_again sampleMeasures
      lawful_sampleConversions (accept_sampleCall .empty) plain_sampleEnv (PyStr.unpaired_ofChars _) absent_sampleStore ran
    cases written
    have second := verifyReceipt_of_twice (accepted _) again
    obtain ⟨env, -, seals, -⟩ := verifyReceipt_eq_ok_iff.1 second
    rw [sealed_replayed_iff (sealed_sorted (sealed_sealed (absent_unsigned _)))] at seals
    revert seals
    simp only [Unchanged, digest, Sha256.hexdigest_eq]
    decide +kernel
  · intro verdicts
    obtain ⟨verdict, returned⟩ := verdicts .empty (sampleEnv.document.set "budget" (.arr [.null]) ⟨trivial, trivial⟩)
    cases returned

end Slots

end SimplicioFast
