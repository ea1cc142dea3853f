import SimplicioFast.Cache.SingleFlight
import SimplicioFast.Lib.Lists

/-!
# What the calls of a coordinator get

In every state of every run the flights of the coordinator are those of the owners that have not removed theirs,
and each flight counts the calls that wait for it (`Inv`).  A flight whose event is set keeps its outcome, so that
a waiter which reads it later gets what the owner got (`Later`).
-/

namespace SimplicioFast

namespace SingleFlight

variable {α ε : Type} {w w' : World α ε} {i j f : ℕ} {c d : Caller α ε} {k : RequestKey} {pc : At α ε}
  {outcome : Except ε (Option α)} {out : Outcome α ε}

/-! ## What a call is -/

/-- The call has made a flight and not removed it. -/
def At.owns : At α ε → Bool
  | .operating | .publishing _ | .removing _ => true
  | _ => false

/-- The call is a waiter that has not left its flight. -/
def At.waitsFor (f : ℕ) : At α ε → Bool
  | .joined g | .waiting g _ _ | .stopping g _ | .readingError g | .readingResult g | .leaving g _ => g = f
  | _ => false

def At.isOwner : At α ε → Bool
  | .done .owner _ => true
  | pc => pc.owns

def At.isDone : At α ε → Bool
  | .done _ _ => true
  | _ => false

/-- The flight holds the outcome of the operation. -/
def Published (flight : RequestFlight α ε) : Except ε (Option α) → Prop
  | .ok v => flight.error = none ∧ flight.result = v
  | .error e => flight.error = some e

def Unpublished (flight : RequestFlight α ε) : Prop :=
  flight.event = false ∧ flight.error = none ∧ flight.result = none

/-- The two hold the same but for the number of waiters. -/
def SameContent (a b : RequestFlight α ε) : Prop := a.event = b.event ∧ a.error = b.error ∧ a.result = b.result

theorem SameContent.published {a b : RequestFlight α ε} (same : SameContent a b) (h : Published a outcome) :
    Published b outcome := by
  cases outcome with
  | ok v => exact ⟨same.2.1 ▸ h.1, same.2.2 ▸ h.2⟩
  | error e => exact same.2.1.symm.trans h

theorem published_unique {flight : RequestFlight α ε} {o o' : Except ε (Option α)} (h : Published flight o)
    (h' : Published flight o') : o = o' := by
  cases o with
  | ok v =>
    cases o' with
    | ok v' => exact congrArg Except.ok (h.2.symm.trans h'.2)
    | error e' =>
      have none := h.1.symm.trans h'
      cases none
  | error e =>
    cases o' with
    | ok v' =>
      have none := h'.1.symm.trans h
      cases none
    | error e' => exact congrArg Except.error (Option.some.inj (h.symm.trans h'))

/-! ## The invariant -/

/-- The flight was made by a call with the same key. -/
def Flown (w : World α ε) (c : Caller α ε) (f : ℕ) : Prop :=
  ∃ d, w.callers[f]? = some d ∧ d.key = c.key ∧ d.pc.isOwner = true

/-- The waiter gives up as it may, or has what the owner of the flight got. -/
def Delivers (w : World α ε) (c : Caller α ε) (f : ℕ) (out : Outcome α ε) : Prop :=
  out = waiterCancelled ∧ c.cancelEvent.isSome ∨ out = waiterTimeout ∧ c.timeout.isSome ∨
    (w.heap f).event = true ∧ ∃ o, out = ofOperation o ∧ Published (w.heap f) o

/-- What a call can rely on where it is. -/
def Knows (w : World α ε) (i : ℕ) (c : Caller α ε) : Prop :=
  match c.pc with
  | .admission => True
  | .operating | .publishing _ => Unpublished (w.heap i)
  | .removing o => (w.heap i).event = false ∧ Published (w.heap i) o
  | .joined f => Flown w c f
  | .waiting f deadline _ => Flown w c f ∧ (deadline.isSome → c.timeout.isSome)
  | .stopping f .cancelled => Flown w c f ∧ c.cancelEvent.isSome
  | .stopping f .timedOut => Flown w c f ∧ c.timeout.isSome
  | .readingError f => Flown w c f ∧ (w.heap f).event = true
  | .readingResult f => Flown w c f ∧ (w.heap f).event = true ∧ (w.heap f).error = none
  | .leaving f out => Flown w c f ∧ Delivers w c f out
  | .done .refused _ => True
  | .done .owner out => (w.heap i).event = true ∧ ∃ o, out = ofOperation o ∧ Published (w.heap i) o
  | .done (.waiter f) out => Flown w c f ∧ Delivers w c f out

/-- What holds in every state of a run. -/
structure Inv (w : World α ε) : Prop where
  /-- the flights are those of the owners that have not removed theirs -/
  flight : ∀ k f, w.self.flights.get? k = some f ↔ ∃ c, w.callers[f]? = some c ∧ c.key = k ∧ c.pc.owns = true
  owners : w.callers.countP (·.pc.owns) = w.self.flights.entries.length
  flights_le : w.self.flights.entries.length ≤ w.self.maxFlights
  /-- each flight counts its waiters -/
  waiters : ∀ f, w.callers.countP (·.pc.waitsFor f) = (w.heap f).waiters
  waiters_le : ∀ f, (w.heap f).waiters ≤ w.self.maxWaiters
  /-- an event is set by the owner of the flight -/
  settled : ∀ f, (w.heap f).event = true → ∃ c out, w.callers[f]? = some c ∧ c.pc = .done .owner out
  knows : ∀ i c, w.callers[i]? = some c → Knows w i c

/-! ## Frames -/

/-- What a call relies on in others stays: a caller stays with its key, an owner stays one, and a flight whose
event is set keeps its content. -/
structure Later (w w' : World α ε) : Prop where
  callers : ∀ (f : ℕ) (d : Caller α ε), w.callers[f]? = some d → d.pc.isOwner = true →
    ∃ d' : Caller α ε, w'.callers[f]? = some d' ∧ d'.key = d.key ∧ d'.pc.isOwner = true
  content : ∀ f, (w.heap f).event = true → SameContent (w.heap f) (w'.heap f)

theorem Later.refl (w : World α ε) : Later w w :=
  ⟨fun _ d found owner => ⟨d, found, rfl, owner⟩, fun _ _ => ⟨rfl, rfl, rfl⟩⟩

/-- What a step keeps. -/
structure Next (w w' : World α ε) : Prop where
  inv : Inv w'
  later : Later w w'

theorem Flown.later (h : Flown w c f) (later : Later w w') : Flown w' c f := by
  obtain ⟨d, there, same, owner⟩ := h
  obtain ⟨d', there', same', owner'⟩ := later.callers f d there owner
  exact ⟨d', there', same'.trans same, owner'⟩

theorem Delivers.later (h : Delivers w c f out) (later : Later w w') : Delivers w' c f out := by
  rcases h with h | h | ⟨event, o, rfl, published⟩
  · exact .inl h
  · exact .inr (.inl h)
  · have same := later.content f event
    exact .inr (.inr ⟨same.1 ▸ event, o, rfl, same.published published⟩)

theorem Knows.later (h : Knows w i c) (later : Later w w') (own : SameContent (w.heap i) (w'.heap i)) :
    Knows w' i c := by
  obtain ⟨event, error, result⟩ := own
  unfold Knows at h ⊢
  split at h
  · trivial
  · exact ⟨event ▸ h.1, error ▸ h.2.1, result ▸ h.2.2⟩
  · exact ⟨event ▸ h.1, error ▸ h.2.1, result ▸ h.2.2⟩
  · exact ⟨event ▸ h.1, SameContent.published ⟨event, error, result⟩ h.2⟩
  · exact h.later later
  · exact ⟨h.1.later later, h.2⟩
  · exact ⟨h.1.later later, h.2⟩
  · exact ⟨h.1.later later, h.2⟩
  · exact ⟨h.1.later later, (later.content _ h.2).1 ▸ h.2⟩
  · have same := later.content _ h.2.1
    exact ⟨h.1.later later, same.1 ▸ h.2.1, same.2.1 ▸ h.2.2⟩
  · exact ⟨h.1.later later, h.2.later later⟩
  · trivial
  · obtain ⟨set, o, rfl, published⟩ := h
    exact ⟨event ▸ set, o, rfl, SameContent.published ⟨event, error, result⟩ published⟩
  · exact ⟨h.1.later later, h.2.later later⟩

theorem Knows.flown (h : Knows w i c) (waits : c.pc.waitsFor f = true) : Flown w c f := by
  obtain ⟨key, timeout, cancelEvent, pc⟩ := c
  cases pc with
  | joined g =>
    obtain rfl := of_decide_eq_true waits
    exact h
  | waiting g deadline point =>
    obtain rfl := of_decide_eq_true waits
    exact h.1
  | stopping g stop =>
    obtain rfl := of_decide_eq_true waits
    cases stop with
    | cancelled => exact h.1
    | timedOut => exact h.1
  | readingError g =>
    obtain rfl := of_decide_eq_true waits
    exact h.1
  | readingResult g =>
    obtain rfl := of_decide_eq_true waits
    exact h.1
  | leaving g out =>
    obtain rfl := of_decide_eq_true waits
    exact h.1
  | _ => cases waits

/-! ## The steps of a call -/

section Steps

variable (there : w.callers[i]? = some c)

include there

theorem callers_of_ne (calls : w'.callers = w.callers.set i { c with pc := pc }) (h : w'.callers[j]? = some d) :
    j = i ∧ d = { c with pc := pc } ∨ j ≠ i ∧ w.callers[j]? = some d := by
  rw [calls, getElem?_set_of_some _ there] at h
  by_cases same : j = i
  · rw [if_pos same] at h
    exact .inl ⟨same, (Option.some.inj h).symm⟩
  · rw [if_neg same] at h
    exact .inr ⟨same, h⟩

theorem caller_moved (calls : w'.callers = w.callers.set i { c with pc := pc }) :
    w'.callers[i]? = some { c with pc := pc } := by
  rw [calls, getElem?_set_of_some _ there, if_pos rfl]

theorem caller_kept (calls : w'.callers = w.callers.set i { c with pc := pc }) (other : j ≠ i) :
    w'.callers[j]? = w.callers[j]? := by
  rw [calls, getElem?_set_of_some _ there, if_neg other]

theorem later_of_move (calls : w'.callers = w.callers.set i { c with pc := pc })
    (owner : c.pc.isOwner = true → pc.isOwner = true)
    (content : ∀ f, (w.heap f).event = true → SameContent (w.heap f) (w'.heap f)) : Later w w' := by
  refine ⟨fun f d found owns => ?_, content⟩
  by_cases same : f = i
  · subst same
    obtain rfl := Option.some.inj (there.symm.trans found)
    exact ⟨_, caller_moved there calls, rfl, owner owns⟩
  · exact ⟨d, (caller_kept there calls same).trans found, rfl, owns⟩

theorem knows_of_move (h : Inv w) (calls : w'.callers = w.callers.set i { c with pc := pc }) (later : Later w w')
    (others : ∀ j ≠ i, SameContent (w.heap j) (w'.heap j)) (own : Knows w' i { c with pc := pc }) (j : ℕ)
    (d : Caller α ε) (found : w'.callers[j]? = some d) : Knows w' j d := by
  rcases callers_of_ne there calls found with ⟨rfl, rfl⟩ | ⟨other, found⟩
  · exact own
  · exact (h.knows j d found).later later (others j other)

theorem settled_of_move (h : Inv w) (calls : w'.callers = w.callers.set i { c with pc := pc })
    (running : c.pc.isDone = false) (content : ∀ f ≠ i, (w'.heap f).event = (w.heap f).event)
    (own : (w'.heap i).event = true → (w.heap i).event = true ∨ ∃ out, pc = .done .owner out) (f : ℕ)
    (event : (w'.heap f).event = true) : ∃ c out, w'.callers[f]? = some c ∧ c.pc = .done .owner out := by
  by_cases same : f = i
  · subst same
    rcases own event with before | ⟨out, rfl⟩
    · obtain ⟨d, out, found, done⟩ := h.settled f before
      obtain rfl := Option.some.inj (there.symm.trans found)
      rw [done] at running
      cases running
    · exact ⟨_, out, caller_moved there calls, rfl⟩
  · obtain ⟨d, out, found, done⟩ := h.settled f (content f same ▸ event)
    exact ⟨d, out, (caller_kept there calls same).trans found, done⟩

theorem countP_move (calls : w'.callers = w.callers.set i { c with pc := pc }) (p : At α ε → Bool)
    (same : p pc = p c.pc) : w'.callers.countP (fun d => p d.pc) = w.callers.countP fun d => p d.pc := by
  have counted := countP_set_add (fun d : Caller α ε => p d.pc) { c with pc := pc } there
  rw [← calls] at counted
  dsimp only at counted
  rw [same] at counted
  omega

theorem flight_of_move (h : Inv w) (calls : w'.callers = w.callers.set i { c with pc := pc })
    (owns : pc.owns = c.pc.owns) (k : RequestKey) (f : ℕ) : w.self.flights.get? k = some f ↔
      ∃ c, w'.callers[f]? = some c ∧ c.key = k ∧ c.pc.owns = true := by
  rw [h.flight]
  by_cases same : f = i
  · subst same
    rw [there, caller_moved there calls]
    constructor
    · rintro ⟨d, found, key, own⟩
      obtain rfl := Option.some.inj found
      exact ⟨_, rfl, key, owns.trans own⟩
    · rintro ⟨d, found, key, own⟩
      obtain rfl := Option.some.inj found
      exact ⟨_, rfl, key, owns.symm.trans own⟩
  · rw [caller_kept there calls same]

theorem Inv.move (h : Inv w) (calls : w'.callers = w.callers.set i { c with pc := pc })
    (flights : w'.self.flights = w.self.flights) (maxFlights : w'.self.maxFlights = w.self.maxFlights)
    (maxWaiters : w'.self.maxWaiters = w.self.maxWaiters) (heap : w'.heap = w.heap)
    (running : c.pc.isDone = false) (owns : pc.owns = c.pc.owns) (owner : pc.isOwner = c.pc.isOwner)
    (waits : ∀ f, pc.waitsFor f = c.pc.waitsFor f) (knows : Knows w i { c with pc := pc }) : Next w w' := by
  have same (f : ℕ) : SameContent (w.heap f) (w'.heap f) := by
    rw [heap]
    exact ⟨rfl, rfl, rfl⟩
  have later := later_of_move there calls (fun o => owner.trans o) fun f _ => same f
  have own : Knows w' i { c with pc := pc } := knows.later later (same i)
  refine ⟨⟨?_, ?_, ?_, ?_, ?_, ?_, knows_of_move there h calls later (fun j _ => same j) own⟩, later⟩
  · rw [flights]
    exact flight_of_move there h calls owns
  · rw [countP_move there calls At.owns owns, flights]
    exact h.owners
  · rw [flights, maxFlights]
    exact h.flights_le
  · intro f
    rw [countP_move there calls (At.waitsFor f) (waits f), heap]
    exact h.waiters f
  · intro f
    rw [heap, maxWaiters]
    exact h.waiters_le f
  · exact settled_of_move there h calls running (fun f _ => by rw [heap]) fun event => .inl (by rwa [heap] at event)

theorem Inv.make (h : Inv w) (entering : c.pc = .admission) (absent : w.self.flights.get? c.key = none)
    (room : w.self.flights.entries.length < w.self.maxFlights)
    (calls : w'.callers = w.callers.set i { c with pc := .operating })
    (flights : w'.self.flights = w.self.flights.set c.key i) (maxFlights : w'.self.maxFlights = w.self.maxFlights)
    (maxWaiters : w'.self.maxWaiters = w.self.maxWaiters) (heap : w'.heap = Function.update w.heap i {}) :
    Next w w' := by
  have fresh : w'.heap i = {} := by rw [heap, Function.update_self]
  have others : ∀ j ≠ i, w'.heap j = w.heap j := fun j other => by rw [heap, Function.update_of_ne other]
  have same (j : ℕ) (other : j ≠ i) : SameContent (w.heap j) (w'.heap j) := by
    rw [others j other]
    exact ⟨rfl, rfl, rfl⟩
  -- nobody waits for a call that is not an owner
  have unflown : ∀ d : Caller α ε, ¬ Flown w d i := by
    rintro d ⟨e, found, -, owner⟩
    obtain rfl := Option.some.inj (there.symm.trans found)
    rw [entering] at owner
    cases owner
  have alone : w.callers.countP (fun d => d.pc.waitsFor i) = 0 := by
    refine List.countP_eq_zero.2 fun d mem waits => ?_
    obtain ⟨j, found⟩ := List.mem_iff_getElem?.1 mem
    exact unflown d ((h.knows j d found).flown waits)
  have later : Later w w' := by
    refine later_of_move there calls (fun owner => by rw [entering] at owner; cases owner) fun f event => ?_
    refine same f fun e => ?_
    subst e
    obtain ⟨d, out, found, done⟩ := h.settled f event
    obtain rfl := Option.some.inj (there.symm.trans found)
    rw [entering] at done
    cases done
  refine ⟨⟨fun k f => ?_, ?_, ?_, fun f => ?_, fun f => ?_, ?_, knows_of_move there h calls later same ?_⟩, later⟩
  · rw [flights, Dict.get?_set]
    by_cases key : k = c.key
    · rw [if_pos key]
      constructor
      · rintro made
        obtain rfl := Option.some.inj made
        exact ⟨_, caller_moved there calls, key.symm, rfl⟩
      · rintro ⟨d, found, same, owns⟩
        rcases callers_of_ne there calls found with ⟨rfl, -⟩ | ⟨-, found⟩
        · rfl
        · have flying := (h.flight k f).2 ⟨d, found, same, owns⟩
          rw [key, absent] at flying
          cases flying
    · rw [if_neg key, h.flight]
      refine exists_congr fun d => ?_
      by_cases other : f = i
      · subst other
        rw [there, caller_moved there calls]
        constructor
        · rintro ⟨found, -, owns⟩
          obtain rfl := Option.some.inj found
          rw [entering] at owns
          cases owns
        · rintro ⟨found, same, -⟩
          obtain rfl := Option.some.inj found
          exact absurd same.symm key
      · rw [caller_kept there calls other]
  · have counted := countP_set_add (fun d : Caller α ε => d.pc.owns) { c with pc := .operating } there
    rw [← calls, entering] at counted
    rw [flights, Dict.length_set_of_none i absent, ← h.owners]
    exact counted
  · rw [flights, Dict.length_set_of_none i absent, maxFlights]
    exact room
  · rw [countP_move there calls (At.waitsFor f) (by rw [entering]; rfl)]
    by_cases other : f = i
    · rw [other, alone, fresh]
    · rw [others f other]
      exact h.waiters f
  · rw [maxWaiters]
    by_cases other : f = i
    · rw [other, fresh]
      exact Nat.zero_le _
    · rw [others f other]
      exact h.waiters_le f
  · exact settled_of_move there h calls (by rw [entering]; rfl) (fun f other => by rw [others f other])
      fun event => by rw [fresh] at event; cases event
  · show Unpublished (w'.heap i)
    rw [fresh]
    exact ⟨rfl, rfl, rfl⟩

theorem Inv.join (h : Inv w) (entering : c.pc = .admission) (flying : w.self.flights.get? c.key = some f)
    (room : (w.heap f).waiters < w.self.maxWaiters)
    (calls : w'.callers = w.callers.set i { c with pc := .joined f }) (flights : w'.self.flights = w.self.flights)
    (maxFlights : w'.self.maxFlights = w.self.maxFlights) (maxWaiters : w'.self.maxWaiters = w.self.maxWaiters)
    (heap : w'.heap = Function.update w.heap f { w.heap f with waiters := (w.heap f).waiters + 1 }) : Next w w' := by
  have same (j : ℕ) : SameContent (w.heap j) (w'.heap j) := by
    rw [heap]
    by_cases other : j = f
    · subst other
      rw [Function.update_self]
      exact ⟨rfl, rfl, rfl⟩
    · rw [Function.update_of_ne other]
      exact ⟨rfl, rfl, rfl⟩
  have later := later_of_move there calls (fun owner => by rw [entering] at owner; cases owner) fun j _ => same j
  have flown : Flown w { c with pc := .joined f } f := by
    obtain ⟨d, found, key, owns⟩ := (h.flight c.key f).1 flying
    refine ⟨d, found, key, ?_⟩
    unfold At.isOwner
    split
    · rfl
    · exact owns
  refine ⟨⟨?_, ?_, ?_, fun g => ?_, fun g => ?_, ?_, knows_of_move there h calls later (fun j _ => same j)
    (flown.later later)⟩, later⟩
  · rw [flights]
    exact flight_of_move there h calls (by rw [entering]; rfl)
  · rw [countP_move there calls At.owns (by rw [entering]; rfl), flights]
    exact h.owners
  · rw [flights, maxFlights]
    exact h.flights_le
  · rw [heap]
    by_cases other : g = f
    · subst other
      have counted := countP_set_add (fun d : Caller α ε => d.pc.waitsFor g) { c with pc := .joined g } there
      have before : c.pc.waitsFor g = false := by
        rw [entering]
        rfl
      have after : (At.joined g : At α ε).waitsFor g = true := decide_eq_true rfl
      rw [← calls, h.waiters g, before, after, if_pos rfl, if_neg (by decide)] at counted
      rw [Function.update_self]
      exact counted
    · rw [Function.update_of_ne other, countP_move there calls (At.waitsFor g), h.waiters g]
      rw [entering]
      exact decide_eq_false fun e => other e.symm
  · rw [heap, maxWaiters]
    by_cases other : g = f
    · subst other
      rw [Function.update_self]
      exact room
    · rw [Function.update_of_ne other]
      exact h.waiters_le g
  · exact settled_of_move there h calls (by rw [entering]; rfl) (fun j _ => (same j).1.symm)
      fun event => .inl ((same i).1.trans event)

theorem Inv.publish (h : Inv w) (publishing : c.pc = .publishing outcome)
    (calls : w'.callers = w.callers.set i { c with pc := .removing outcome })
    (flights : w'.self.flights = w.self.flights) (maxFlights : w'.self.maxFlights = w.self.maxFlights)
    (maxWaiters : w'.self.maxWaiters = w.self.maxWaiters) (flight : RequestFlight α ε)
    (heap : w'.heap = Function.update w.heap i flight) (waiters : flight.waiters = (w.heap i).waiters)
    (event : flight.event = (w.heap i).event) (published : Published flight outcome) : Next w w' := by
  have unpublished : Unpublished (w.heap i) := by
    have known := h.knows i c there
    rw [Knows, publishing] at known
    exact known
  have others : ∀ j ≠ i, w'.heap j = w.heap j := fun j other => by rw [heap, Function.update_of_ne other]
  have own : w'.heap i = flight := by rw [heap, Function.update_self]
  have same (j : ℕ) (other : j ≠ i) : SameContent (w.heap j) (w'.heap j) := by
    rw [others j other]
    exact ⟨rfl, rfl, rfl⟩
  have later : Later w w' := by
    refine later_of_move there calls (fun _ => rfl) fun j set => same j fun e => ?_
    rw [e, unpublished.1] at set
    cases set
  have counts (j : ℕ) : (w'.heap j).waiters = (w.heap j).waiters := by
    by_cases other : j = i
    · rw [other, own, waiters]
    · rw [others j other]
  refine ⟨⟨?_, ?_, ?_, fun g => ?_, fun g => ?_, ?_, knows_of_move there h calls later same ?_⟩, later⟩
  · rw [flights]
    exact flight_of_move there h calls (by rw [publishing]; rfl)
  · rw [countP_move there calls At.owns (by rw [publishing]; rfl), flights]
    exact h.owners
  · rw [flights, maxFlights]
    exact h.flights_le
  · rw [countP_move there calls (At.waitsFor g) (by rw [publishing]; rfl), counts]
    exact h.waiters g
  · rw [counts, maxWaiters]
    exact h.waiters_le g
  · exact settled_of_move there h calls (by rw [publishing]; rfl) (fun j other => by rw [others j other])
      fun set => .inl (by rwa [own, event] at set)
  · show (w'.heap i).event = false ∧ Published (w'.heap i) outcome
    rw [own, event]
    exact ⟨unpublished.1, published⟩

theorem Inv.remove (h : Inv w) (removing : c.pc = .removing outcome)
    (calls : w'.callers = w.callers.set i { c with pc := .done .owner (ofOperation outcome) })
    (flights : w'.self.flights = w.self.flights.erase c.key) (maxFlights : w'.self.maxFlights = w.self.maxFlights)
    (maxWaiters : w'.self.maxWaiters = w.self.maxWaiters)
    (heap : w'.heap = Function.update w.heap i { w.heap i with event := true }) : Next w w' := by
  have known : (w.heap i).event = false ∧ Published (w.heap i) outcome := by
    have known := h.knows i c there
    rw [Knows, removing] at known
    exact known
  have owns : c.pc.owns = true := by
    rw [removing]
    rfl
  have flying : w.self.flights.get? c.key = some i := (h.flight c.key i).2 ⟨c, there, rfl, owns⟩
  have others : ∀ j ≠ i, w'.heap j = w.heap j := fun j other => by rw [heap, Function.update_of_ne other]
  have own : w'.heap i = { w.heap i with event := true } := by rw [heap, Function.update_self]
  have same (j : ℕ) (other : j ≠ i) : SameContent (w.heap j) (w'.heap j) := by
    rw [others j other]
    exact ⟨rfl, rfl, rfl⟩
  have later : Later w w' := by
    refine later_of_move there calls (fun _ => rfl) fun j set => same j fun e => ?_
    rw [e, known.1] at set
    cases set
  have counts (j : ℕ) : (w'.heap j).waiters = (w.heap j).waiters := by
    by_cases other : j = i
    · rw [other, own]
    · rw [others j other]
  refine ⟨⟨fun k f => ?_, ?_, ?_, fun g => ?_, fun g => ?_, ?_, knows_of_move there h calls later same ?_⟩, later⟩
  · rw [flights, Dict.get?_erase]
    constructor
    · intro found
      by_cases key : k = c.key
      · rw [if_pos key] at found
        cases found
      · rw [if_neg key, h.flight] at found
        obtain ⟨d, found, same, own⟩ := found
        refine ⟨d, (caller_kept there calls fun e => ?_).trans found, same, own⟩
        subst e
        obtain rfl := Option.some.inj (there.symm.trans found)
        exact key same.symm
    · rintro ⟨d, found, same, own⟩
      rcases callers_of_ne there calls found with ⟨-, rfl⟩ | ⟨other, found⟩
      · cases own
      · have before := (h.flight k f).2 ⟨d, found, same, own⟩
        rw [if_neg fun key => ?_]
        · exact before
        · rw [key, flying] at before
          exact other (Option.some.inj before).symm
  · have counted := countP_set_add (fun d : Caller α ε => d.pc.owns)
      { c with pc := .done .owner (ofOperation outcome) } there
    rw [← calls, if_pos owns, h.owners] at counted
    have removed := Dict.length_erase_of_some flying
    rw [flights]
    have gone : (At.done .owner (ofOperation outcome) : At α ε).owns = false := rfl
    rw [gone] at counted
    simp only [Bool.false_eq_true, if_false] at counted
    omega
  · have removed := Dict.length_erase_of_some flying
    have bound := h.flights_le
    rw [flights, maxFlights]
    omega
  · rw [countP_move there calls (At.waitsFor g) (by rw [removing]; rfl), counts]
    exact h.waiters g
  · rw [counts, maxWaiters]
    exact h.waiters_le g
  · exact settled_of_move there h calls (by rw [removing]; rfl) (fun j other => by rw [others j other])
      fun _ => .inr ⟨_, rfl⟩
  · show (w'.heap i).event = true ∧ ∃ o, ofOperation outcome = ofOperation o ∧ Published (w'.heap i) o
    rw [own]
    refine ⟨rfl, outcome, rfl, ?_⟩
    cases outcome with
    | ok v => exact known.2
    | error e => exact known.2

theorem Inv.leave (h : Inv w) (leaving : c.pc = .leaving f out)
    (calls : w'.callers = w.callers.set i { c with pc := .done (.waiter f) out })
    (flights : w'.self.flights = w.self.flights) (maxFlights : w'.self.maxFlights = w.self.maxFlights)
    (maxWaiters : w'.self.maxWaiters = w.self.maxWaiters)
    (heap : w'.heap = Function.update w.heap f { w.heap f with waiters := max 0 ((w.heap f).waiters - 1) }) :
    Next w w' := by
  have same (j : ℕ) : SameContent (w.heap j) (w'.heap j) := by
    rw [heap]
    by_cases other : j = f
    · subst other
      rw [Function.update_self]
      exact ⟨rfl, rfl, rfl⟩
    · rw [Function.update_of_ne other]
      exact ⟨rfl, rfl, rfl⟩
  have later := later_of_move there calls (fun owner => by rw [leaving] at owner; cases owner) fun j _ => same j
  have known : Knows w i { c with pc := .done (.waiter f) out } := by
    have known := h.knows i c there
    rw [Knows, leaving] at known
    exact known
  have waits : c.pc.waitsFor f = true := by
    rw [leaving]
    exact decide_eq_true rfl
  refine ⟨⟨?_, ?_, ?_, fun g => ?_, fun g => ?_, ?_, knows_of_move there h calls later (fun j _ => same j)
    (known.later later (same i))⟩, later⟩
  · rw [flights]
    exact flight_of_move there h calls (by rw [leaving]; rfl)
  · rw [countP_move there calls At.owns (by rw [leaving]; rfl), flights]
    exact h.owners
  · rw [flights, maxFlights]
    exact h.flights_le
  · rw [heap]
    by_cases other : g = f
    · subst other
      have counted := countP_set_add (fun d : Caller α ε => d.pc.waitsFor g) { c with pc := .done (.waiter g) out } there
      rw [← calls, if_pos waits, h.waiters g] at counted
      have gone : (At.done (.waiter g) out : At α ε).waitsFor g = false := rfl
      rw [gone] at counted
      simp only [Bool.false_eq_true, if_false] at counted
      rw [Function.update_self, Nat.max_eq_right (Nat.zero_le _)]
      show _ = (w.heap g).waiters - 1
      omega
    · rw [Function.update_of_ne other, countP_move there calls (At.waitsFor g), h.waiters g]
      rw [leaving]
      exact (decide_eq_false fun e => other e.symm).symm
  · have bound := h.waiters_le g
    rw [heap, maxWaiters]
    by_cases other : g = f
    · subst other
      rw [Function.update_self, Nat.max_eq_right (Nat.zero_le _)]
      exact (Nat.sub_le _ _).trans bound
    · rw [Function.update_of_ne other]
      exact bound
  · exact settled_of_move there h calls (by rw [leaving]; rfl) (fun j _ => (same j).1.symm)
      fun event => .inl ((same i).1.trans event)

end Steps

/-! ## The steps of the process -/

theorem Inv.await (h : Inv w) (there : w.callers[i]? = some c) {deadline : Option ℚ} {point : WaitPoint}
    (waiting : c.pc = .waiting f deadline point) (signalled : Bool) :
    Next w (await w i c f deadline point signalled) := by
  have known : Flown w c f ∧ (deadline.isSome → c.timeout.isSome) := by
    have known := h.knows i c there
    rw [Knows, waiting] at known
    exact known
  have running : c.pc.isDone = false := by
    rw [waiting]
    rfl
  -- whatever the waiter sees, it goes on waiting for the same flight
  have go (pc : At α ε) (owns : pc.owns = false) (owner : pc.isOwner = false)
      (waits : ∀ g, pc.waitsFor g = decide (f = g)) (knows : Knows w i { c with pc := pc }) : Next w (w.goto i c pc) :=
    h.move there rfl rfl rfl rfl rfl running (by rw [owns, waiting]; rfl) (by rw [owner, waiting]; rfl)
      (fun g => by rw [waits, waiting]; rfl) knows
  have loop (point : WaitPoint) : Next w (w.goto i c (.waiting f deadline point)) :=
    go _ rfl rfl (fun _ => rfl) known
  unfold SingleFlight.await
  cases point with
  | event =>
    by_cases set : (w.heap f).event = true
    · rw [if_pos set]
      exact go _ rfl rfl (fun _ => rfl) ⟨known.1, set⟩
    · rw [if_neg set]
      exact loop _
  | cancel =>
    by_cases set : c.cancelEvent.any w.cancelled = true
    · rw [if_pos set]
      exact go _ rfl rfl (fun _ => rfl) ⟨known.1, Option.isSome_of_any set⟩
    · rw [if_neg set]
      exact loop _
  | remaining => exact loop _
  | wait => exact loop _
  | deadline =>
    dsimp only
    split_ifs with passed
    · exact go _ rfl rfl (fun _ => rfl) ⟨known.1, known.2 (Option.isSome_of_any passed)⟩
    · exact loop _

theorem Inv.refuse (h : Inv w) (there : w.callers[i]? = some c) (entering : c.pc = .admission)
    (calls : w'.callers = w.callers.set i { c with pc := .done .refused out })
    (flights : w'.self.flights = w.self.flights) (maxFlights : w'.self.maxFlights = w.self.maxFlights)
    (maxWaiters : w'.self.maxWaiters = w.self.maxWaiters) (heap : w'.heap = w.heap) : Next w w' :=
  h.move there calls flights maxFlights maxWaiters heap (by rw [entering]; rfl) (by rw [entering]; rfl)
    (by rw [entering]; rfl) (fun g => by rw [entering]; rfl) trivial

theorem Inv.enter (h : Inv w) (there : w.callers[i]? = some c) (entering : c.pc = .admission) :
    Next w (enter w i c) := by
  unfold SingleFlight.enter
  split
  · next absent =>
    split_ifs with full
    · exact h.refuse there entering rfl rfl rfl rfl rfl
    · exact h.make there entering absent (Nat.not_le.1 full) rfl rfl rfl rfl rfl
  · next f flying =>
    split_ifs with full
    · exact h.refuse there entering rfl rfl rfl rfl rfl
    · exact h.join there entering flying (Nat.not_le.1 full) rfl rfl rfl rfl rfl

theorem Inv.advance (h : Inv w) (there : w.callers[i]? = some c) (outcome : Except ε (Option α)) (signalled : Bool) :
    Next w (advance w i c outcome signalled) := by
  have known := h.knows i c there
  unfold Knows at known
  unfold SingleFlight.advance
  cases at_ : c.pc with
  | admission =>
    dsimp only
    split_ifs with negative
    · exact h.refuse there at_ rfl rfl rfl rfl rfl
    · exact h.enter there at_
  | operating =>
    rw [at_] at known
    exact h.move there rfl rfl rfl rfl rfl (by rw [at_]; rfl) (by rw [at_]; rfl) (by rw [at_]; rfl)
      (fun g => by rw [at_]; rfl) known
  | publishing o =>
    rw [at_] at known
    cases o with
    | ok v => exact h.publish there at_ rfl rfl rfl rfl { w.heap i with result := v } rfl rfl rfl ⟨known.2.1, rfl⟩
    | error e => exact h.publish there at_ rfl rfl rfl rfl { w.heap i with error := some e } rfl rfl rfl rfl
  | removing o => exact h.remove there at_ rfl rfl rfl rfl rfl
  | joined f =>
    rw [at_] at known
    refine h.move there rfl rfl rfl rfl rfl (by rw [at_]; rfl) (by rw [at_]; rfl) (by rw [at_]; rfl)
      (fun g => by rw [at_]; rfl) ⟨known, fun given => ?_⟩
    rwa [Option.isSome_map] at given
  | waiting f deadline point => exact h.await there at_ signalled
  | stopping f reason =>
    rw [at_] at known
    cases reason with
    | cancelled =>
      exact h.move there rfl rfl rfl rfl rfl (by rw [at_]; rfl) (by rw [at_]; rfl) (by rw [at_]; rfl)
        (fun g => by rw [at_]; rfl) ⟨known.1, .inl ⟨rfl, known.2⟩⟩
    | timedOut =>
      exact h.move there rfl rfl rfl rfl rfl (by rw [at_]; rfl) (by rw [at_]; rfl) (by rw [at_]; rfl)
        (fun g => by rw [at_]; rfl) ⟨known.1, .inr (.inl ⟨rfl, known.2⟩)⟩
  | readingError f =>
    rw [at_] at known
    dsimp only
    split
    · next e raised =>
      exact h.move there rfl rfl rfl rfl rfl (by rw [at_]; rfl) (by rw [at_]; rfl) (by rw [at_]; rfl)
        (fun g => by rw [at_]; rfl) ⟨known.1, .inr (.inr ⟨known.2, .error e, rfl, raised⟩)⟩
    · next returned =>
      exact h.move there rfl rfl rfl rfl rfl (by rw [at_]; rfl) (by rw [at_]; rfl) (by rw [at_]; rfl)
        (fun g => by rw [at_]; rfl) ⟨known.1, known.2, returned⟩
  | readingResult f =>
    rw [at_] at known
    exact h.move there rfl rfl rfl rfl rfl (by rw [at_]; rfl) (by rw [at_]; rfl) (by rw [at_]; rfl)
      (fun g => by rw [at_]; rfl) ⟨known.1, .inr (.inr ⟨known.2.1, .ok (w.heap f).result, rfl, known.2.2, rfl⟩)⟩
  | leaving f out => exact h.leave there at_ rfl rfl rfl rfl rfl
  | done part out => exact ⟨h, .refl w⟩

theorem Inv.call (h : Inv w) (d : Caller α ε) (entering : d.pc = .admission) :
    Next w { w with callers := w.callers ++ [d] } := by
  have counts (p : At α ε → Bool) (not : p .admission = false) :
      (w.callers ++ [d]).countP (fun c => p c.pc) = w.callers.countP fun c => p c.pc := by
    rw [List.countP_append, List.countP_singleton, entering, not]
    rfl
  have kept (f : ℕ) (c : Caller α ε) (found : w.callers[f]? = some c) : (w.callers ++ [d])[f]? = some c :=
    (getElem?_append_one _ _ _).2 (.inl found)
  have later : Later w { w with callers := w.callers ++ [d] } :=
    ⟨fun f c found owner => ⟨c, kept f c found, rfl, owner⟩, fun _ _ => ⟨rfl, rfl, rfl⟩⟩
  refine ⟨⟨fun k f => ?_, ?_, h.flights_le, fun f => ?_, h.waiters_le, fun f event => ?_, fun i c found => ?_⟩, later⟩
  · rw [h.flight]
    refine exists_congr fun c => ?_
    rw [getElem?_append_one]
    constructor
    · rintro ⟨found, rest⟩
      exact ⟨.inl found, rest⟩
    · rintro ⟨found | ⟨-, rfl⟩, key, owns⟩
      · exact ⟨found, key, owns⟩
      · rw [entering] at owns
        cases owns
  · exact (counts At.owns rfl).trans h.owners
  · exact (counts (At.waitsFor f) rfl).trans (h.waiters f)
  · obtain ⟨c, out, found, done⟩ := h.settled f event
    exact ⟨c, out, kept f c found, done⟩
  · rcases (getElem?_append_one _ _ _).1 found with found | ⟨-, rfl⟩
    · exact (h.knows i c found).later later ⟨rfl, rfl, rfl⟩
    · rw [Knows, entering]
      trivial

theorem Inv.step (h : Inv w) (event : Event α ε) : Next w (step w event) := by
  cases event with
  | call key timeout cancelEvent => exact h.call _ rfl
  | tick elapsed =>
    refine ⟨⟨h.flight, h.owners, h.flights_le, h.waiters, h.waiters_le, h.settled, h.knows⟩, ?_⟩
    exact ⟨(Later.refl w).callers, (Later.refl w).content⟩
  | cancel event isSet =>
    refine ⟨⟨h.flight, h.owners, h.flights_le, h.waiters, h.waiters_le, h.settled, h.knows⟩, ?_⟩
    exact ⟨(Later.refl w).callers, (Later.refl w).content⟩
  | advance i outcome signalled =>
    unfold SingleFlight.step
    dsimp only
    split
    · exact ⟨h, .refl w⟩
    · next c there => exact h.advance there outcome signalled

theorem inv_start (self : SingleFlightCoordinator) (none : self.flights = .empty) :
    Inv (World.start self : World α ε) := by
  refine ⟨fun k f => ?_, ?_, ?_, fun _ => rfl, fun _ => Nat.zero_le _, fun _ event => ?_, fun _ _ found => ?_⟩
  · show self.flights.get? k = some f ↔ _
    rw [none]
    constructor
    · intro found
      cases found
    · rintro ⟨c, found, -⟩
      cases found
  · show 0 = self.flights.entries.length
    rw [none]
    rfl
  · show self.flights.entries.length ≤ _
    rw [none]
    exact Nat.zero_le _
  · cases event
  · cases found

/-! ## What remains to be done -/

/-- How many steps a call takes at most until it is done, once it waits for nothing. -/
def At.left : At α ε → ℕ
  | .admission => 9
  | .operating => 3
  | .publishing _ => 2
  | .removing _ => 1
  | .joined _ => 5
  | .waiting _ _ .event => 4
  | .waiting _ _ .cancel => 8
  | .waiting _ _ .remaining => 7
  | .waiting _ _ .wait => 6
  | .waiting _ _ .deadline => 5
  | .stopping _ _ => 2
  | .readingError _ => 3
  | .readingResult _ => 2
  | .leaving _ _ => 1
  | .done _ _ => 0

/-- The call waits for no other one: it owns its flight, or the event of the flight that it joined is set. -/
def Ready (w : World α ε) (pc : At α ε) : Prop :=
  pc.isDone = true ∨ pc.owns = true ∨ ∃ f, pc.waitsFor f = true ∧ (w.heap f).event = true

def Event.moves (i : ℕ) : Event α ε → Bool
  | .advance j _ _ => j = i
  | _ => false

theorem Ready.later {pc : At α ε} (h : Ready w pc) (later : Later w w') : Ready w' pc := by
  rcases h with h | h | ⟨f, waits, event⟩
  · exact .inl h
  · exact .inr (.inl h)
  · exact .inr (.inr ⟨f, waits, (later.content f event).1 ▸ event⟩)

theorem Delivers.owner (h : Inv w) (flown : Flown w c f) (delivers : Delivers w c f out) :
    out = waiterCancelled ∧ c.cancelEvent.isSome ∨ out = waiterTimeout ∧ c.timeout.isSome ∨
      ∃ d o, w.callers[f]? = some d ∧ d.key = c.key ∧ d.pc = .done .owner (ofOperation o) ∧ out = ofOperation o := by
  rcases delivers with cancelled | timedOut | ⟨event, o, rfl, published⟩
  · exact .inl cancelled
  · exact .inr (.inl timedOut)
  · obtain ⟨d, found, key, -⟩ := flown
    obtain ⟨e, out, owner, done⟩ := h.settled f event
    obtain rfl := Option.some.inj (found.symm.trans owner)
    have known := h.knows f d found
    rw [Knows, done] at known
    obtain ⟨-, o', rfl, published'⟩ := known
    obtain rfl := published_unique published published'
    exact .inr (.inr ⟨d, o, found, key, done, rfl⟩)

def sampleKey : RequestKey := ⟨"repo", "c0ffee", "g1", "00", by decide +kernel⟩

end SingleFlight

end SimplicioFast
