import Mathlib.Data.List.Pairwise
import SimplicioFast.Slots.Stored
import SimplicioFast.Slots.Tree

/-!
# Concurrent calls with one envelope

Calls of `execute` with the same envelope run in any order, one part after the other: the lookup under the lock, the
making of the overlay, each write, and the second block under the lock, which stores the receipt.

The writes are carried out once, and all calls return the receipt of that one execution, when no call looks for the receipt
while another one is between its lookup and the storing of its receipt, and the writes fit.
-/

namespace SimplicioFast

namespace Slots

open Crash

/-- Where a call is in `execute`. -/
inductive At
  | looking (env : Envelope)
  | making (env : Envelope)
  | writing (env : Envelope) (overlay : List PyStr) (todo : List (PyStr × Bytes)) (progress : Progress)
  | done (outcome : Except SlotRaised JsonObject)

/-- A call, and where it is. -/
structure Dispatch where
  call : Call
  pc : At

/-- The files with the counter of the executor, and all calls so far. -/
structure World where
  store : Store
  calls : List Dispatch

/-- A call comes in, or a call goes on; its measures are used when it makes its receipt. -/
inductive Event
  | dispatch (snapshot : Snapshot) (writes : Dict PyStr Bytes) (runtimeAvailable rustAvailable : Bool)
  | proceed (i : ℕ) (measures : Measures)

/-! ## Parts of `execute` -/

/-- A part is carried out; what it raises ends the call. -/
def advance {α : Type} (m : Prog Store SlotRaised α) (next : α → At) (s : Store) : Store × At :=
  ((m s).last, match (m s).result with
    | .ok a => next a
    | .error e => .done (.error e))

section Step

variable (c : Conversions) (root : List PyStr)

def goOn (call : Call) (measures : Measures) : At → Store → Store × At
  | .looking env => advance (lookup c root env) fun found => found.elim (.making env) fun receipt => .done (.ok receipt)
  | .making env => advance (onFiles (prepare c root env)) fun overlay => .writing env overlay (ordered call.writes) ⟨0, 0⟩
  | .writing env overlay (item :: todo) progress =>
    advance (onFiles (writeOne env overlay progress item)) fun progress => .writing env overlay todo progress
  | .writing env _ [] progress =>
    advance (onFiles (record root env (sealed (execution call env progress measures).unsigned)))
      fun receipt => .done (.ok receipt)
  | .done outcome => fun s => (s, .done outcome)

variable (envelope : JsonObject)

def step (w : World) : Event → World
  | .dispatch snapshot writes runtimeAvailable rustAvailable =>
    let call : Call := ⟨envelope, snapshot, writes, runtimeAvailable, rustAvailable⟩
    { w with calls := w.calls ++ [⟨call, match accept c call with
      | .ok env => .looking env
      | .error e => .done (.error e)⟩] }
  | .proceed i measures =>
    match w.calls[i]? with
    | none => w
    | some d =>
      let next := goOn c root d.call measures d.pc w.store
      ⟨next.1, w.calls.set i ⟨d.call, next.2⟩⟩

end Step

variable {c : Conversions} {root overlay : List PyStr} {envelope : JsonObject} {call : Call} {measures : Measures}
  {s : Store} {env : Envelope} {fs : FileSystem} {pc : At} {w : World} {d d' : Dispatch}

/-! ## A call that is not interrupted -/

/-- The call comes to the end that the run describes. -/
def Reaches (c : Conversions) (root : List PyStr) (call : Call) (measures : Measures) (pc : At) (s : Store)
    (run : Run Store SlotRaised JsonObject) : Prop :=
  ∃ n, (fun x : Store × At => goOn c root call measures x.2 x.1)^[n] (s, pc) = (run.last, .done run.result)

/-! ## Once -/

/-- The writes fit: there are not too many, each of them leads into the overlay, and none to a place on the way to
another one. -/
structure Fits (env : Envelope) (overlay : List PyStr) (writes : Dict PyStr Bytes) : Prop where
  few : ((ordered writes).length : ℤ) ≤ env.maxOperations
  goes : ∀ item ∈ ordered writes, ∃ path, target overlay item.1 = .ok path
  apart : (ordered writes).Pairwise fun f g => Apart (place overlay f).1 (place overlay g).1

/-- The writes of the call fit, and no text of its receipt holds a pair of surrogates as two characters. -/
def Good (c : Conversions) (root : List PyStr) (call : Call) : Prop :=
  ∀ env overlay, accept c call = .ok env → overlayDir c root env = some overlay →
    Fits env overlay call.writes ∧ call.snapshot.snapshotId.Unpaired

/-- The identifiers of the envelope lead down from `overlays`, and none of its texts holds such a pair. -/
def GoodEnvelope (c : Conversions) (envelope : JsonObject) : Prop :=
  ∀ env, validateEnvelope c envelope = .ok env → env.Plain ∧ Confined c env

/-- The call is between its lookup and the storing of its receipt. -/
def At.IsBusy : At → Prop
  | .making _ | .writing _ _ _ _ => True
  | _ => False

def At.IsLooking : At → Prop
  | .looking _ => True
  | _ => False

/-- A call that comes in is good, and a call looks for the receipt when no other one is busy. -/
def Steady (c : Conversions) (root : List PyStr) (envelope : JsonObject) (w : World) : Event → Prop
  | .dispatch snapshot writes runtimeAvailable rustAvailable =>
    Good c root ⟨envelope, snapshot, writes, runtimeAvailable, rustAvailable⟩
  | .proceed i _ => ∀ d, w.calls[i]? = some d → d.pc.IsLooking → ∀ d' ∈ w.calls, ¬ d'.pc.IsBusy

/-- The call was refused before it looked for anything. -/
def Refused (c : Conversions) (d : Dispatch) : Prop := ∃ e, accept c d.call = .error e ∧ d.pc = .done (.error e)

/-- The files in the overlay are exactly where these writes go. -/
def Holds (overlay : List PyStr) (fs : FileSystem) (items : List (PyStr × Bytes)) : Prop :=
  ∀ q b, overlay <+: q → (fs.content q = some b ↔ ∃ item ∈ items, target overlay item.1 = .ok q ∧ item.2 = b)

/-- The execution counts these writes, and they are what is in the overlay. -/
structure Counted (c : Conversions) (root : List PyStr) (fs : FileSystem) (x : Execution) (items : List (PyStr × Bytes)) :
    Prop where
  operations : x.operations = items.length
  bytesWritten : x.bytesWritten = (items.map fun item => item.2.length).sum
  overlay : ∃ overlay, overlayDir c root x.env = some overlay ∧ Holds overlay fs items

/-- The call returned the receipt of the execution, as it was made or as it was found. -/
def Returned (x : Execution) (d : Dispatch) : Prop :=
  d.pc = .done (.ok (sealed x.unsigned)) ∨ d.pc = .done (.ok (replayed (sealed x.unsigned).sorted))

/-- At most one execution was begun.  No call has returned, apart from those that were refused, or all that have returned
gave the receipt of the execution of one of them, and the overlay holds exactly the writes of that call. -/
def Once (c : Conversions) (root : List PyStr) (w : World) : Prop :=
  w.store.workersStarted ≤ 1 ∧
    ((∀ d ∈ w.calls, ∀ outcome, d.pc = .done outcome → Refused c d) ∨
      ∃ x, (∃ d ∈ w.calls, Counted c root w.store.fs x (ordered d.call.writes)) ∧
        ∀ d ∈ w.calls, ∀ outcome, d.pc = .done outcome → Refused c d ∨ Returned x d)

/-! ## Invariant -/

/-- A call that has not looked for the receipt yet, or that was refused. -/
def Waiting (c : Conversions) (root : List PyStr) (envelope : JsonObject) (d : Dispatch) : Prop :=
  d.call.envelope = envelope ∧ Good c root d.call ∧ (Refused c d ∨ ∃ env, accept c d.call = .ok env ∧ d.pc = .looking env)

/-- What the files are while a call is busy. -/
def Working (c : Conversions) (root : List PyStr) (env : Envelope) (call : Call) (fs : FileSystem) : At → Prop
  | .making env' => env' = env ∧ Fresh root fs
  | .writing env' overlay todo progress => env' = env ∧ overlayDir c root env = some overlay ∧
      overlaysDir root <+: overlay ∧ ∃ written, ordered call.writes = written ++ todo ∧
        progress = ⟨written.length, (written.map fun item => item.2.length).sum⟩ ∧
        Tree root overlay (written.map (place overlay)) fs
  | _ => False

/-- Nothing was executed, one call is busy, or one receipt is stored. -/
inductive Inv (c : Conversions) (root : List PyStr) (envelope : JsonObject) (w : World) : Prop
  | before (started : w.store.workersStarted = 0) (fresh : Fresh root w.store.fs)
      (waiting : ∀ d ∈ w.calls, Waiting c root envelope d)
  | during (started : w.store.workersStarted = 1) (k : ℕ) (d : Dispatch) (env : Envelope) (busy : w.calls[k]? = some d)
      (own : d.call.envelope = envelope) (accepted : accept c d.call = .ok env) (good : Good c root d.call)
      (working : Working c root env d.call w.store.fs d.pc)
      (others : ∀ j d', w.calls[j]? = some d' → j ≠ k → Waiting c root envelope d')
  | after (started : w.store.workersStarted = 1) (x : Execution)
      (stored : w.store.fs.get? (receiptPath root x.env) = some (.file (receiptBytes (sealed x.unsigned))))
      (unpaired : (sealed x.unsigned).toJson.Unpaired)
      (valid : validateEnvelope c envelope = .ok x.env) (counted : ∃ d ∈ w.calls, Counted c root w.store.fs x (ordered d.call.writes))
      (calls : ∀ d ∈ w.calls, Waiting c root envelope d ∨ Returned x d)

theorem Waiting.refused_of_done {outcome : Except SlotRaised JsonObject} (waiting : Waiting c root envelope d)
    (finished : d.pc = .done outcome) : Refused c d := by
  rcases waiting.2.2 with refused | ⟨env, -, looking⟩
  · exact refused
  · rw [looking] at finished
    cases finished

theorem Working.not_done {outcome : Except SlotRaised JsonObject} (working : Working c root env call fs pc) :
    pc ≠ .done outcome := by
  rintro rfl
  exact working

theorem Inv.once (inv : Inv c root envelope w) : Once c root w := by
  cases inv with
  | before started fresh waiting =>
    refine ⟨by omega, .inl fun d mem outcome finished => (waiting d mem).refused_of_done finished⟩
  | during started k d env busy own accepted good working others =>
    refine ⟨by omega, .inl fun d' mem outcome finished => ?_⟩
    obtain ⟨j, bound, rfl⟩ := List.getElem_of_mem mem
    have there := List.getElem?_eq_getElem bound
    by_cases same : j = k
    · subst same
      obtain rfl : d = w.calls[j] := Option.some.inj (busy.symm.trans there)
      exact absurd finished working.not_done
    · exact (others j _ there same).refused_of_done finished
  | after started x stored unpaired valid counted calls =>
    obtain ⟨d, mem, counted⟩ := counted
    refine ⟨by omega, .inr ⟨x, ⟨d, mem, counted⟩, fun d mem outcome finished => ?_⟩⟩
    exact (calls d mem).imp_left fun waiting => waiting.refused_of_done finished

/-! ## One event -/

variable {calls : List Dispatch} {i : ℕ} {x : Execution} {items : List (PyStr × Bytes)}

theorem waiting_dispatch (own : call.envelope = envelope) (good : Good c root call) :
    Waiting c root envelope ⟨call, match accept c call with
      | .ok env => .looking env
      | .error e => .done (.error e)⟩ := by
  refine ⟨own, good, ?_⟩
  cases accepted : accept c call with
  | ok env => exact .inr ⟨env, rfl, rfl⟩
  | error e => exact .inl ⟨e, accepted, rfl⟩

theorem Inv.append (inv : Inv c root envelope w) (waiting : Waiting c root envelope d) :
    Inv c root envelope { w with calls := w.calls ++ [d] } := by
  have all {P : Dispatch → Prop} (old : ∀ d ∈ w.calls, P d) (new : P d) : ∀ d' ∈ w.calls ++ [d], P d' := by
    intro d' mem
    rcases List.mem_append.1 mem with mem | mem
    · exact old d' mem
    · rw [List.mem_singleton.1 mem]
      exact new
  cases inv with
  | before started fresh old => exact .before started fresh (all old waiting)
  | during started k d' env busy own accepted good working others =>
    have inside : k < w.calls.length := (List.getElem?_eq_some_iff.1 busy).1
    refine .during started k d' env ?_ own accepted good working fun j d'' there other => ?_
    · rw [List.getElem?_append_left inside]
      exact busy
    · rw [List.getElem?_append] at there
      split at there
      · exact others j d'' there other
      · rw [List.getElem?_singleton] at there
        split at there
        · cases there
          exact waiting
        · cases there
  | after started x stored unpaired valid counted old =>
    obtain ⟨d', mem, counted⟩ := counted
    exact .after started x stored unpaired valid ⟨d', List.mem_append_left _ mem, counted⟩ (all old (.inl waiting))

theorem step_proceed (there : w.calls[i]? = some d) : step c root envelope w (.proceed i measures) =
    ⟨(goOn c root d.call measures d.pc w.store).1,
      w.calls.set i ⟨d.call, (goOn c root d.call measures d.pc w.store).2⟩⟩ := by
  unfold step
  dsimp only
  rw [there]

theorem step_of_done {outcome : Except SlotRaised JsonObject} (there : w.calls[i]? = some d)
    (finished : d.pc = .done outcome) : step c root envelope w (.proceed i measures) = w := by
  obtain ⟨call, pc⟩ := d
  obtain rfl : pc = .done outcome := finished
  obtain ⟨bound, same⟩ := List.getElem?_eq_some_iff.1 there
  rw [step_proceed there]
  show (⟨w.store, w.calls.set i ⟨call, .done outcome⟩⟩ : World) = w
  rw [← same, List.set_getElem_self]

theorem advance_of_returns {α : Type} {m : Prog FileSystem SlotRaised α} {next : α → At} {a : α}
    (returned : Returns m s.fs a fs) : advance (onFiles m) next s = ({ s with fs := fs }, next a) := by
  have result : (onFiles m s).result = .ok a := returned.1
  rw [advance, result]
  show ({ s with fs := (m s.fs).last }, next a) = _
  rw [returned.2]

theorem getElem?_set_self (there : calls[i]? = some d) : (calls.set i d')[i]? = some d' := by
  rw [List.getElem?_set_self (List.getElem?_eq_some_iff.1 there).1]

theorem exists_mem_set (there : calls[i]? = some d) {d₀ : Dispatch} (mem : d₀ ∈ calls) :
    ∃ d₁ ∈ calls.set i ⟨d.call, pc⟩, d₁.call = d₀.call := by
  obtain ⟨j, bound, rfl⟩ := List.getElem_of_mem mem
  by_cases same : i = j
  · subst same
    obtain rfl : d = calls[i] := Option.some.inj (there.symm.trans (List.getElem?_eq_getElem bound))
    exact ⟨_, List.mem_of_getElem? (getElem?_set_self there), rfl⟩
  · refine ⟨calls[j], List.mem_of_getElem? (i := j) ?_, rfl⟩
    rw [List.getElem?_set_ne same, List.getElem?_eq_getElem bound]

theorem inv_of_lookup (started : w.store.workersStarted = 0) (fresh : Fresh root w.store.fs)
    (waiting : ∀ d ∈ w.calls, Waiting c root envelope d) (there : w.calls[i]? = some d)
    (accepted : accept c d.call = .ok env) (looking : d.pc = .looking env) :
    Inv c root envelope (step c root envelope w (.proceed i measures)) := by
  have absent : w.store.fs.get? (receiptPath root env) = none := by
    refine fresh.empty _ (root_prefix_receiptsDir.trans (List.prefix_append _ _)) fun same => ?_
    have lengths := congrArg List.length same
    rw [receiptPath, receiptsDir, List.length_append, List.length_append, List.length_singleton] at lengths
    omega
  obtain ⟨own, good, -⟩ := waiting d (List.mem_of_getElem? there)
  rw [step_proceed there, looking, goOn, advance, lookup_of_absent absent]
  refine .during ?_ i ⟨d.call, .making env⟩ env (getElem?_set_self there) own accepted good ⟨rfl, fresh⟩ ?_
  · show w.store.workersStarted + 1 = 1
    rw [started]
  · intro j d' there' other
    rw [List.getElem?_set_ne other.symm] at there'
    exact waiting d' (List.mem_of_getElem? there')

theorem inv_of_replay (lawful : c.Lawful) (started : w.store.workersStarted = 1)
    (stored : w.store.fs.get? (receiptPath root x.env) = some (.file (receiptBytes (sealed x.unsigned))))
    (unpaired : (sealed x.unsigned).toJson.Unpaired) (valid : validateEnvelope c envelope = .ok x.env)
    (counted : ∃ d ∈ w.calls, Counted c root w.store.fs x (ordered d.call.writes))
    (calls : ∀ d ∈ w.calls, Waiting c root envelope d ∨ Returned x d) (there : w.calls[i]? = some d)
    (own : d.call.envelope = envelope) (accepted : accept c d.call = .ok env) (looking : d.pc = .looking env) :
    Inv c root envelope (step c root envelope w (.proceed i measures)) := by
  obtain rfl : env = x.env := by
    have valid' := envelope_of_accept accepted
    rw [own, valid] at valid'
    exact (Except.ok.inj valid').symm
  have found : lookup c root x.env w.store = ⟨[], w.store, .ok (some (replayed (sealed x.unsigned).sorted))⟩ := by
    unfold lookup
    rw [stored]
    dsimp only
    rw [readReceipt_receiptBytes lawful (sealed_sealed (absent_unsigned x)) unpaired]
    rfl
  rw [step_proceed there, looking, goOn, advance, found]
  refine .after started x stored unpaired valid ?_ fun d' mem => ?_
  · obtain ⟨d₀, mem, counted⟩ := counted
    obtain ⟨d₁, mem', same⟩ := exists_mem_set there mem
    exact ⟨d₁, mem', same ▸ counted⟩
  · rcases List.mem_or_eq_of_mem_set mem with old | rfl
    · exact calls d' old
    · exact .inr (.inr rfl)

/-! ## The busy call -/

theorem inv_of_busy {α : Type} {m : Prog FileSystem SlotRaised α} {next : α → At} {a : α}
    (started : w.store.workersStarted = 1) (busy : w.calls[i]? = some d) (own : d.call.envelope = envelope)
    (accepted : accept c d.call = .ok env) (good : Good c root d.call)
    (others : ∀ j d', w.calls[j]? = some d' → j ≠ i → Waiting c root envelope d')
    (part : goOn c root d.call measures d.pc w.store = advance (onFiles m) next w.store)
    (returned : Returns m w.store.fs a fs) (working : Working c root env d.call fs (next a)) :
    Inv c root envelope (step c root envelope w (.proceed i measures)) := by
  rw [step_proceed busy, part, advance_of_returns returned]
  refine .during started i ⟨d.call, next a⟩ env (getElem?_set_self busy) own accepted good working fun j d' there other => ?_
  rw [List.getElem?_set_ne other.symm] at there
  exact others j d' there other

theorem holds_of_placed (goes : ∀ item ∈ items, ∃ path, target overlay item.1 = .ok path)
    (apart : items.Pairwise fun f g => Apart (place overlay f).1 (place overlay g).1)
    (inside : ∀ q, overlay <+: q → fs.get? q = placedAt overlay (items.map (place overlay)) q) : Holds overlay fs items := by
  have at_ (item : PyStr × Bytes) (mem : item ∈ items) (q : List PyStr) :
      (place overlay item).1 = q ↔ target overlay item.1 = .ok q := by
    obtain ⟨path, leads⟩ := goes item mem
    rw [place, leads]
    show path = q ↔ _
    rw [Except.ok.injEq]
  have one (f g : PyStr × Bytes) (left : f ∈ items) (right : g ∈ items)
      (same : (place overlay f).1 = (place overlay g).1) : f = g := by
    by_contra other
    have symm : Std.Symm fun f g : PyStr × Bytes => Apart (place overlay f).1 (place overlay g).1 := ⟨fun _ _ h => h.symm⟩
    exact (apart.forall left right other).1 (same ▸ List.prefix_refl _)
  intro q b within
  rw [FileSystem.content_eq_some_iff, inside q within, placedAt]
  cases found : (items.map (place overlay)).find? fun f => f.1 = q with
  | none =>
    have absent := List.find?_eq_none.1 found
    refine iff_of_false ?_ ?_
    · dsimp only
      split <;> exact fun same => by cases same
    · rintro ⟨item, mem, leads, -⟩
      exact absent _ (List.mem_map_of_mem mem) (decide_eq_true ((at_ item mem q).2 leads))
  | some f =>
    obtain ⟨item, mem, rfl⟩ := List.mem_map.1 (List.mem_of_find?_eq_some found)
    have here : (place overlay item).1 = q := of_decide_eq_true (List.find?_some found :)
    dsimp only
    rw [Option.some.injEq, Node.file.injEq]
    constructor
    · rintro rfl
      exact ⟨item, mem, (at_ item mem q).1 here, rfl⟩
    · rintro ⟨item', mem', leads, rfl⟩
      rw [one item item' mem mem' (here.trans ((at_ item' mem' q).2 leads).symm)]
      rfl

theorem inv_of_record {progress : Progress} (admitted : GoodEnvelope c envelope)
    (started : w.store.workersStarted = 1) (busy : w.calls[i]? = some d) (own : d.call.envelope = envelope)
    (accepted : accept c d.call = .ok env) (good : Good c root d.call)
    (others : ∀ j d', w.calls[j]? = some d' → j ≠ i → Waiting c root envelope d')
    (recording : d.pc = .writing env overlay [] progress)
    (working : Working c root env d.call w.store.fs (.writing env overlay [] progress)) :
    Inv c root envelope (step c root envelope w (.proceed i measures)) := by
  obtain ⟨-, made, below, written, all, counts, tree⟩ := working
  rw [List.append_nil] at all
  subst all
  obtain ⟨fits, snapshot⟩ := good env overlay accepted made
  have valid : validateEnvelope c envelope = .ok env := own ▸ envelope_of_accept accepted
  obtain ⟨fs, returned, same, stored⟩ := returns_record
    (sealed (execution d.call env progress measures).unsigned) tree below
  have holds : Holds overlay fs (ordered d.call.writes) :=
    holds_of_placed fits.goes fits.apart fun q within => (same q within).trans (tree.inside q within)
  have counted : Counted c root fs (execution d.call env progress measures) (ordered d.call.writes) := by
    refine ⟨?_, ?_, overlay, made, holds⟩
    · rw [counts]
      rfl
    · rw [counts]
      rfl
  rw [step_proceed busy, recording, goOn, advance_of_returns returned]
  refine .after started (execution d.call env progress measures) stored
    (unpaired_sealed (admitted env valid).1 snapshot) valid
    ⟨_, List.mem_of_getElem? (getElem?_set_self busy), counted⟩ fun d' mem => ?_
  obtain ⟨j, bound, rfl⟩ := List.getElem_of_mem mem
  have there := List.getElem?_eq_getElem bound
  by_cases this : j = i
  · subst this
    rw [Option.some.inj (there.symm.trans (getElem?_set_self busy))]
    exact .inr (.inl rfl)
  · rw [List.getElem?_set_ne (Ne.symm this)] at there
    exact .inl (others j _ there this)

theorem inv_of_working (admitted : GoodEnvelope c envelope)
    (started : w.store.workersStarted = 1) (busy : w.calls[i]? = some d) (own : d.call.envelope = envelope)
    (accepted : accept c d.call = .ok env) (good : Good c root d.call)
    (others : ∀ j d', w.calls[j]? = some d' → j ≠ i → Waiting c root envelope d')
    (working : Working c root env d.call w.store.fs d.pc) :
    Inv c root envelope (step c root envelope w (.proceed i measures)) := by
  have valid : validateEnvelope c envelope = .ok env := own ▸ envelope_of_accept accepted
  have next {α : Type} {m : Prog FileSystem SlotRaised α} {next : α → At} {a : α} {fs : FileSystem}
      (part : goOn c root d.call measures d.pc w.store = advance (onFiles m) next w.store)
      (returned : Returns m w.store.fs a fs) (working : Working c root env d.call fs (next a)) :
      Inv c root envelope (step c root envelope w (.proceed i measures)) :=
    inv_of_busy started busy own accepted good others part returned working
  cases here : d.pc with
  | looking env' =>
    rw [here] at working
    exact absurd working id
  | done outcome => exact absurd here working.not_done
  | making env' =>
    rw [here] at working next
    obtain ⟨rfl, fresh⟩ := working
    obtain ⟨overlay, fs, returned, made, below, tree⟩ := returns_prepare fresh (admitted env' valid).2
    exact next rfl returned ⟨rfl, made, below, [], rfl, rfl, tree⟩
  | writing env' overlay todo progress =>
    rw [here] at working next
    obtain ⟨rfl, made, below, written, all, counts, tree⟩ := working
    obtain ⟨fits, -⟩ := good env' overlay accepted made
    cases todo with
    | nil =>
      exact inv_of_record admitted started busy own accepted good others here
        ⟨rfl, made, below, written, all, counts, tree⟩
    | cons item todo =>
      have mem : item ∈ ordered d.call.writes := all ▸ List.mem_append_right _ (List.mem_cons_self ..)
      have few := fits.few
      rw [all, List.length_append, List.length_cons] at few
      have apart := fits.apart
      rw [all, List.pairwise_append] at apart
      have count : ((progress.operations + 1 : ℕ) : ℤ) ≤ env'.maxOperations := by
        rw [counts]
        push_cast at few ⊢
        omega
      have clear (f : List PyStr × Bytes) (mem : f ∈ written.map (place overlay)) :
          Apart f.1 (place overlay item).1 := by
        obtain ⟨item', mem', rfl⟩ := List.mem_map.1 mem
        exact apart.2.2 item' mem' item (List.mem_cons_self ..)
      obtain ⟨fs, returned, tree⟩ := returns_writeOne tree below count (fits.goes item mem) clear
      refine next rfl returned ⟨rfl, made, below, written ++ [item], ?_, ?_, ?_⟩
      · rw [all, List.append_assoc]
        rfl
      · rw [counts, List.length_append, List.map_append, List.sum_append]
        rfl
      · rw [List.map_append]
        exact tree

/-! ## Runs -/

theorem Working.isBusy (working : Working c root env call fs pc) : pc.IsBusy := by
  cases pc with
  | making env' => trivial
  | writing env' overlay todo progress => trivial
  | looking env' => exact working
  | done outcome => exact working

theorem inv_step (lawful : c.Lawful) (admitted : GoodEnvelope c envelope) (w : World) (e : Event)
    (inv : Inv c root envelope w) (steady : Steady c root envelope w e) :
    Inv c root envelope (step c root envelope w e) := by
  cases e with
  | dispatch snapshot writes runtimeAvailable rustAvailable => exact inv.append (waiting_dispatch rfl steady)
  | proceed i measures =>
    cases there : w.calls[i]? with
    | none =>
      have same : step c root envelope w (.proceed i measures) = w := by
        unfold step
        dsimp only
        rw [there]
      rwa [same]
    | some d =>
      have mem := List.mem_of_getElem? there
      cases inv with
      | before started fresh waiting =>
        rcases (waiting d mem).2.2 with ⟨e, -, finished⟩ | ⟨env, accepted, looking⟩
        · rw [step_of_done there finished]
          exact .before started fresh waiting
        · exact inv_of_lookup started fresh waiting there accepted looking
      | during started k d' env busy own accepted good working others =>
        by_cases same : i = k
        · subst same
          obtain rfl : d' = d := Option.some.inj (busy.symm.trans there)
          exact inv_of_working admitted started busy own accepted good others working
        · rcases (others i d there same).2.2 with ⟨e, -, finished⟩ | ⟨env', -, looking⟩
          · rw [step_of_done there finished]
            exact .during started k d' env busy own accepted good working others
          · have quiet := steady d there (by rw [looking]; trivial) d' (List.mem_of_getElem? busy)
            exact absurd working.isBusy quiet
      | after started x stored unpaired valid counted calls =>
        have unchanged {outcome : Except SlotRaised JsonObject} (finished : d.pc = .done outcome) :
            Inv c root envelope (step c root envelope w (.proceed i measures)) := by
          rw [step_of_done there finished]
          exact .after started x stored unpaired valid counted calls
        rcases calls d mem with ⟨own, -, ⟨e, -, finished⟩ | ⟨env, accepted, looking⟩⟩ | finished | finished
        · exact unchanged finished
        · exact inv_of_replay lawful started stored unpaired valid counted calls there own accepted looking
        · exact unchanged finished
        · exact unchanged finished

end Slots

end SimplicioFast
