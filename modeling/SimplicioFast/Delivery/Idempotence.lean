import Mathlib.Data.List.Induction
import SimplicioFast.Lib.JsonParse
import SimplicioFast.Lib.Literals
import SimplicioFast.Lib.Sha256Eval
import SimplicioFast.Delivery.Engine

/-!
# Stored receipts and the requests they answer

A delivery that finds a receipt under its key returns it without another look at the request.  A key that the
engine derives is the digest of the request, but a key that the caller gives may be given again.

The machine of this module is a cache of receipts, with the request of every receipt.  A turn is a delivery, in
whatever world and with whatever files it finds, or the removal of a receipt file.
-/

namespace SimplicioFast

namespace Delivery

variable {first call : Request}

/-! ## Derived keys -/

/-- The requests agree on change-set digest, profile and write flag. -/
structure Request.Agrees (first second : Request) : Prop where
  digest : first.changeDigest = second.changeDigest
  profile : first.profile = second.profile
  write : first.write = second.write

/-- The requests have different texts with the same digest. -/
def Request.Collides (first second : Request) : Prop :=
  first.keyText ≠ second.keyText ∧
    sha256 (PyStr.encodeAscii first.keyText) = sha256 (PyStr.encodeAscii second.keyText)

/-- The text behind the digest and the profile. -/
def Request.keyTail (call : Request) : PyStr :=
  Json.writeFields true [("runtime_transaction",
    ((call.runtimeTransaction.map JsonObject.toJson).getD .null).sortKeys), ("write", .bool call.write)]

theorem keyText_eq (call : Request) : call.keyText =
    "\x7b\"changeset\":" ++ (Json.writeStr true call.changeDigest ++ (",\"profile\":" ++
      (Json.writeStr true call.profile ++ call.keyTail))) := by
  rfl

theorem unpaired_of_profile (h : (profileName call.profile).isSome) : call.profile.Unpaired := by
  unfold profileName at h
  split_ifs at h with full standalone
  · rw [full]
    exact PyStr.unpaired_ofChars _
  · rw [standalone]
    exact PyStr.unpaired_ofChars _
  · cases h

theorem write_eq_of_keyTail (h : first.keyTail = call.keyTail) : first.write = call.write := by
  have last (b : Bool) (t : PyStr) : ((t ++ Json.write true (.bool b) ++ [PyChar.scalar '}']).reverse.drop 2).head? =
      some (.scalar (if b then 'u' else 's')) := by
    cases b <;> simp [Json.write, PyStr.ofChars]
  have tail (c : Request) : ∃ t, c.keyTail = t ++ Json.write true (.bool c.write) ++ [PyChar.scalar '}'] := by
    refine ⟨.scalar ',' :: (Json.writeField true ("runtime_transaction",
      ((c.runtimeTransaction.map JsonObject.toJson).getD .null).sortKeys) ++
        .scalar ',' :: (Json.writeStr true "write" ++ [.scalar ':'])), ?_⟩
    simp only [Request.keyTail, Json.writeFields, Json.writeField, List.cons_append, List.append_assoc,
      List.nil_append]
  obtain ⟨t, e⟩ := tail first
  obtain ⟨u, e'⟩ := tail call
  have same := last first.write t
  rw [← e, h, e', last call.write u, Option.some.injEq, PyChar.scalar.injEq] at same
  revert same
  cases first.write <;> cases call.write <;> decide

theorem agrees_of_keyText_eq (hf : (profileName first.profile).isSome)
    (hc : (profileName call.profile).isSome) (h : first.keyText = call.keyText) : first.Agrees call := by
  rw [keyText_eq, keyText_eq, List.append_cancel_left_eq] at h
  have digest := Json.writeStr_append_inj (.inr (PyStr.unpaired_ofChars _))
    (.inr (PyStr.unpaired_ofChars _)) h
  have profile := Json.writeStr_append_inj (.inr (unpaired_of_profile hf)) (.inr (unpaired_of_profile hc))
    (List.append_cancel_left_eq _ _ _ ▸ digest.2)
  exact ⟨digest.1, profile.1, write_eq_of_keyTail profile.2⟩

theorem agrees_or_collides (hf : (profileName first.profile).isSome)
    (hc : (profileName call.profile).isSome) (derived : first.suppliedKey = none)
    (derived' : call.suppliedKey = none) (h : first.key = call.key) :
    first.Agrees call ∨ first.Collides call := by
  rw [Request.key, Request.key, derived, derived', Option.getD_none, Option.getD_none] at h
  by_cases same : first.keyText = call.keyText
  · exact .inl (agrees_of_keyText_eq hf hc same)
  · exact .inr ⟨same, h⟩

/-! ## The cache of receipts -/

/-- The stored receipts, each with the request for which it was stored. -/
abbrev Shelf := PyStr → Option (Receipt × Request)

/-- What happens to the cache. -/
inductive Turn
  | deliver (w : World) (files : Files) (call : Request)
  | discard (file : PyStr)

namespace Shelf

variable (receiptFile : PyStr → PyStr)

def receipts (s : Shelf) : Receipts := fun file => (s file).map Prod.fst

/-- A delivery from the stored receipts. -/
def perform (s : Shelf) (w : World) (files : Files) (call : Request) :
    Except Raised Receipt × Files × Receipts :=
  Delivery.deliver w files call receiptFile s.receipts

/-- The cache after a turn; a receipt that was not there belongs to the request of the turn. -/
def step (s : Shelf) : Turn → Shelf
  | .deliver w files call => fun file =>
    ((s.perform receiptFile w files call).2.2 file).map fun r => (r, ((s file).map Prod.snd).getD call)
  | .discard file => fun f => if f = file then none else s f

def empty : Shelf := fun _ => none

/-- A delivery that returns the receipt of an earlier one with the same key agrees with it. -/
def Bound (s : Shelf) : Turn → Prop
  | .deliver w files call => ∀ stored first, s (receiptFile call.key) = some (stored, first) →
      first.key = call.key → (s.perform receiptFile w files call).1 = .ok (stored.replay call.key) →
      first.Agrees call
  | .discard _ => True

/-- The delivery passes its checks and uses the key of the stored receipt of another request; one of the two
keys was given by the caller, or the texts of the requests collide. -/
def Reuses (s : Shelf) : Turn → Prop
  | .deliver w _ call => (∃ changes, checkRequest w.snapshotFile call = .ok changes) ∧
      ∃ stored first, s (receiptFile call.key) = some (stored, first) ∧ first.key = call.key ∧
        (first.suppliedKey.isSome ∨ call.suppliedKey.isSome ∨ first.Collides call) ∧ ¬ first.Agrees call
  | .discard _ => False

/-- Every stored receipt belongs to a request of a known profile. -/
def Known (s : Shelf) : Prop :=
  ∀ file stored first, s file = some (stored, first) → (profileName first.profile).isSome

variable {receiptFile} {s : Shelf} {w : World} {files : Files} {file : PyStr} {stored : Receipt}

theorem perform_of_stored {changes : List Json} (check : checkRequest w.snapshotFile call = .ok changes)
    (found : s (receiptFile call.key) = some (stored, first)) :
    (s.perform receiptFile w files call).1 = .ok (stored.replay call.key) := by
  have stands : s.receipts (receiptFile call.key) = some stored := congrArg (Option.map Prod.fst) found
  rw [perform, deliver_of_stored check stands]

theorem perform_of_new (before : s file = none)
    (after : (s.perform receiptFile w files call).2.2 file = some stored) :
    (∃ changes, checkRequest w.snapshotFile call = .ok changes) ∧ file = receiptFile call.key ∧
      (s.perform receiptFile w files call).1 = .ok stored := by
  have absent : s.receipts file = none := congrArg (Option.map Prod.fst) before
  unfold perform at after ⊢
  cases check : checkRequest w.snapshotFile call with
  | error x =>
    rw [deliver_of_refused check] at after
    cases absent.symm.trans after
  | ok changes =>
    cases found : s.receipts (receiptFile call.key) with
    | some r =>
      rw [deliver_of_stored check found] at after
      cases absent.symm.trans after
    | none =>
      rw [deliver_of_unstored check found] at after ⊢
      rcases deliverAnew_receipts (receiptFile call.key) with same | ⟨r, returned, put⟩
      · rw [same] at after
        cases absent.symm.trans after
      · rw [put, putReceipt] at after
        split_ifs at after with here
        · refine ⟨⟨changes, rfl⟩, here, ?_⟩
          rw [returned, Option.some.inj after]
        · cases absent.symm.trans after

theorem step_eq_some {turn : Turn} (h : s.step receiptFile turn file = some (stored, first)) :
    (∃ old, s file = some (old, first)) ∨ ∃ w files, turn = .deliver w files first ∧ s file = none ∧
      (s.perform receiptFile w files first).2.2 file = some stored := by
  cases turn with
  | deliver w files call =>
    obtain ⟨r, found, e⟩ := Option.map_eq_some_iff.1 h
    cases before : s file with
    | some p =>
      rw [before] at e
      cases e
      exact .inl ⟨p.1, rfl⟩
    | none =>
      rw [before] at e
      cases e
      exact .inr ⟨w, files, rfl, rfl, found⟩
  | discard gone =>
    simp only [step] at h
    split_ifs at h
    exact .inl ⟨stored, h⟩

theorem Known.step (h : s.Known) (turn : Turn) : (s.step receiptFile turn).Known := by
  intro file stored first found
  rcases step_eq_some found with ⟨old, before⟩ | ⟨w, files, -, before, put⟩
  · exact h file old first before
  · obtain ⟨⟨changes, check⟩, -⟩ := perform_of_new before put
    exact checkRequest_profile check

theorem bound_iff (h : s.Known) (turn : Turn) : s.Bound receiptFile turn ↔ ¬ s.Reuses receiptFile turn := by
  cases turn with
  | discard gone => exact iff_of_true trivial id
  | deliver w files call =>
    constructor
    · rintro bound ⟨⟨changes, check⟩, stored, first, found, key, -, differ⟩
      exact differ (bound stored first found key (perform_of_stored check found))
    · intro fresh stored first found key returned
      by_contra differ
      cases check : checkRequest w.snapshotFile call with
      | error x =>
        rw [perform, deliver_of_refused check] at returned
        cases returned
      | ok changes =>
        refine fresh ⟨⟨changes, check⟩, stored, first, found, key, ?_, differ⟩
        cases given : first.suppliedKey with
        | some k => exact .inl rfl
        | none =>
          cases given' : call.suppliedKey with
          | some k => exact .inr (.inl rfl)
          | none =>
            have agree := agrees_or_collides (h _ _ _ found) (checkRequest_profile check) given given' key
            exact .inr (.inr (agree.resolve_left differ))

/-- In a run from an empty cache every delivery that returns the receipt of an earlier one with the same key
agrees with it, exactly when no delivery of the run uses a given key again for another request. -/
theorem along_bound_iff (turns : List Turn) : Machine.Along (step receiptFile) (Bound receiptFile) empty turns ↔
    Machine.Along (step receiptFile) (fun s turn => ¬ s.Reuses receiptFile turn) empty turns := by
  refine Machine.along_congr_of_invariant (I := Known) ?_ (fun _ turn known => known.step turn)
    fun _ turn known => bound_iff known turn
  intro file stored first found
  cases found

def sampleCall (line : PyStr) : Request := { sampleRequest line with idempotencyKey := some "k" }

def sampleTurn (line : PyStr) : Turn :=
  .deliver (sampleWorld fun _ => .ok ⟨"g2", false⟩) sampleFiles (sampleCall line)

def sampleReceiptFile (key : PyStr) : PyStr := "delivery/" ++ key ++ ".json"

theorem key_sampleCall (line : PyStr) : (sampleCall line).key = "k" := rfl

/-- The key that was given with one change set returns its receipt, of an applied write, for another change
set. -/
theorem not_along_bound_given_key : ¬ Machine.Along (step sampleReceiptFile) (Bound sampleReceiptFile) empty
    [sampleTurn "x = 2\n", sampleTurn "x = 3\n"] := by
  rintro ⟨-, bound, -⟩
  have differ : (sampleCall "x = 2\n").changeDigest ≠ (sampleCall "x = 3\n").changeDigest := by
    simp (disch := decide +kernel) only [Request.changeDigest, sha256, Sha256.hexdigest_eq, Literals.toList_eq_asciiChars]
    decide +kernel
  have stores : (step sampleReceiptFile empty (sampleTurn "x = 2\n") (sampleReceiptFile "k")).isSome := by
    decide +kernel
  obtain ⟨⟨stored, first⟩, found⟩ := Option.isSome_iff_exists.1 stores
  rcases step_eq_some found with ⟨_, before⟩ | ⟨_, _, turn, -⟩
  · cases before
  cases turn
  rw [← key_sampleCall "x = 3\n"] at found
  have same := (key_sampleCall "x = 2\n").trans (key_sampleCall "x = 3\n").symm
  have check := checkRequest_sampleRequest (fun _ => .ok ⟨"g2", false⟩) "x = 3\n" (some "k")
  exact differ (bound stored _ found same (perform_of_stored check found)).digest

end Shelf

end Delivery

end SimplicioFast
