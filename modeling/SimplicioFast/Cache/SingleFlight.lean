import Mathlib.Algebra.Order.Ring.Rat
import Mathlib.Data.List.Count
import SimplicioFast.Lib.Dict
import SimplicioFast.Lib.Machine
import SimplicioFast.Lib.Text

/-!
# The single-flight coordinator

The first caller of `SingleFlightCoordinator.run` for a key owns a flight: it runs the operation and publishes
what comes out.  A caller that comes while the flight is in the air joins it, and waits for its event until its own
deadline or until its cancel event is set.

The calls run in threads of one process.  What a thread does under the lock of the coordinator is one step here:
each of those blocks writes at most one field that is read without the lock, so that no other thread can see it
half done.  What a thread does without the lock is one step for each access to what the threads share: the event
of the flight, its error, its result, the cancel event and the clock.
-/

namespace SimplicioFast

/-- `RequestKey`: four texts that are not empty. -/
structure RequestKey where
  repository : PyStr
  commit : PyStr
  generation : PyStr
  requestDigest : PyStr
  filled : repository ≠ [] ∧ commit ≠ [] ∧ generation ≠ [] ∧ requestDigest ≠ []
deriving DecidableEq

/-- What `run` raises: an exception of the operation, or its own. -/
inductive FlightRaised (ε : Type)
  | operation (error : ε)
  | valueError (message : PyStr)
  | singleFlightError (reasonCode message : PyStr)
deriving DecidableEq

/-- `_RequestFlight`; the result is `None` until it is published. -/
structure RequestFlight (α ε : Type) where
  event : Bool := false
  waiters : ℕ := 0
  result : Option α := none
  error : Option ε := none

/-- The counters of `stats`. -/
structure FlightMetrics where
  owners : ℕ := 0
  completions : ℕ := 0
  waiters : ℕ := 0
  waiterCancellations : ℕ := 0
  waiterTimeouts : ℕ := 0
  failures : ℕ := 0
  rejections : ℕ := 0

/-- `SingleFlightCoordinator`; a flight is found at the number of the call that made it. -/
structure SingleFlightCoordinator where
  maxFlights : ℕ
  maxWaiters : ℕ
  flights : Dict RequestKey ℕ := .empty
  metrics : FlightMetrics := {}

namespace SingleFlight

variable {α ε : Type}

/-- What a call returns or raises; `none` is Python's `None`. -/
abbrev Outcome (α ε : Type) := Except (FlightRaised ε) (Option α)

/-- The errors of `run`. -/
def invalidTimeout : Outcome α ε := .error (.valueError "timeout must be non-negative")

def flightLimit : Outcome α ε := .error (.singleFlightError "flight_limit" "maximum active flights reached")

def waiterLimit : Outcome α ε := .error (.singleFlightError "waiter_limit" "maximum waiters reached for request")

def waiterCancelled : Outcome α ε :=
  .error (.singleFlightError "waiter_cancelled" "waiter cancelled without stopping owner")

def waiterTimeout : Outcome α ε := .error (.singleFlightError "waiter_timeout" "waiter deadline exceeded")

/-- What the operation of an owner does, as the outcome of a call. -/
def ofOperation (o : Except ε (Option α)) : Outcome α ε := o.mapError .operation

/-- Where a waiter is in its loop: it asks whether the event is set, asks whether it has been cancelled, looks at
the time that remains, waits for the event, or looks at the clock again. -/
inductive WaitPoint
  | event
  | cancel
  | remaining
  | wait
  | deadline
deriving DecidableEq

/-- Why a waiter stops waiting. -/
inductive Stop
  | cancelled
  | timedOut
deriving DecidableEq

/-- What a call was to the flight of its key. -/
inductive Part
  | refused
  | owner
  | waiter (flight : ℕ)
deriving DecidableEq

/-- Where a call is. -/
inductive At (α ε : Type)
  /-- before the block that finds or makes the flight -/
  | admission
  /-- an owner in its operation, before it publishes the outcome, and before it removes the flight -/
  | operating
  | publishing (outcome : Except ε (Option α))
  | removing (outcome : Except ε (Option α))
  /-- a waiter before it computes its deadline, in its loop, and before it counts why it stops -/
  | joined (flight : ℕ)
  | waiting (flight : ℕ) (deadline : Option ℚ) (point : WaitPoint)
  | stopping (flight : ℕ) (stop : Stop)
  /-- a waiter before it reads the error and the result, and before it leaves the flight -/
  | readingError (flight : ℕ)
  | readingResult (flight : ℕ)
  | leaving (flight : ℕ) (outcome : Outcome α ε)
  | done (part : Part) (outcome : Outcome α ε)

/-- A call of `run`. -/
structure Caller (α ε : Type) where
  key : RequestKey
  timeout : Option ℚ
  cancelEvent : Option ℕ
  pc : At α ε

/-- The coordinator, the flights that were made, the clock, the cancel events that are set, and the calls. -/
structure World (α ε : Type) where
  self : SingleFlightCoordinator
  heap : ℕ → RequestFlight α ε
  now : ℚ
  cancelled : ℕ → Bool
  callers : List (Caller α ε)

/-- `SingleFlightCoordinator(max_flights=…, max_waiters=…)`; `none` stands for the `ValueError`. -/
def new (maxFlights maxWaiters : ℕ) : Option SingleFlightCoordinator :=
  if maxFlights < 1 ∨ maxWaiters < 1 then none else some { maxFlights, maxWaiters }

/-- The world in which nothing was called. -/
def World.start (self : SingleFlightCoordinator) : World α ε := ⟨self, fun _ => {}, 0, fun _ => false, []⟩

/-! ## The steps of a call -/

variable (w : World α ε) (i : ℕ) (c : Caller α ε)

def World.goto (pc : At α ε) : World α ε := { w with callers := w.callers.set i { c with pc := pc } }

def World.count (f : FlightMetrics → FlightMetrics) : World α ε :=
  { w with self := { w.self with metrics := f w.self.metrics } }

def World.change (flight : ℕ) (f : RequestFlight α ε → RequestFlight α ε) : World α ε :=
  { w with heap := Function.update w.heap flight (f (w.heap flight)) }

/-- The block that finds the flight of the key, or makes one. -/
def enter : World α ε :=
  match w.self.flights.get? c.key with
  | none =>
    if w.self.maxFlights ≤ w.self.flights.entries.length then
      (w.count fun m => { m with rejections := m.rejections + 1 }).goto i c (.done .refused flightLimit)
    else
      let made : World α ε := { w with
        heap := Function.update w.heap i {}
        self := { w.self with flights := w.self.flights.set c.key i } }
      (made.count fun m => { m with owners := m.owners + 1 }).goto i c .operating
  | some f =>
    if w.self.maxWaiters ≤ (w.heap f).waiters then
      (w.count fun m => { m with rejections := m.rejections + 1 }).goto i c (.done .refused waiterLimit)
    else
      ((w.change f fun flight => { flight with waiters := flight.waiters + 1 }).count fun m =>
        { m with waiters := m.waiters + 1 }).goto i c (.joined f)

/-- The block in which an owner publishes its outcome. -/
def publish (outcome : Except ε (Option α)) : World α ε :=
  match outcome with
  | .error e =>
    ((w.change i fun flight => { flight with error := some e }).count fun m =>
      { m with failures := m.failures + 1 }).goto i c (.removing outcome)
  | .ok v =>
    ((w.change i fun flight => { flight with result := v }).count fun m =>
      { m with completions := m.completions + 1 }).goto i c (.removing outcome)

/-- The block in which an owner removes its flight and sets the event. -/
def remove (outcome : Except ε (Option α)) : World α ε :=
  let removed : World α ε := { w with self := { w.self with flights := w.self.flights.erase c.key } }
  (removed.change i fun flight => { flight with event := true }).goto i c (.done .owner (ofOperation outcome))

/-- The loop of a waiter; `signalled` says what `wait` returns, which is true only when the event is set. -/
def await (f : ℕ) (deadline : Option ℚ) (point : WaitPoint) (signalled : Bool) : World α ε :=
  match point with
  | .event => w.goto i c (if (w.heap f).event then .readingError f else .waiting f deadline .cancel)
  | .cancel =>
    w.goto i c (if c.cancelEvent.any w.cancelled then .stopping f .cancelled else .waiting f deadline .remaining)
  | .remaining =>
    w.goto i c (.waiting f deadline (if deadline.any (· ≤ w.now) then .deadline else .wait))
  | .wait =>
    w.goto i c (.waiting f deadline (if signalled && (w.heap f).event then .event else .deadline))
  | .deadline =>
    w.goto i c (if deadline.any (· ≤ w.now) then .stopping f .timedOut else .waiting f deadline .event)

/-- The block in which a waiter counts why it stops. -/
def stop (f : ℕ) (reason : Stop) : World α ε :=
  match reason with
  | .cancelled => (w.count fun m => { m with waiterCancellations := m.waiterCancellations + 1 }).goto i c
      (.leaving f waiterCancelled)
  | .timedOut => (w.count fun m => { m with waiterTimeouts := m.waiterTimeouts + 1 }).goto i c
      (.leaving f waiterTimeout)

/-- The block in which a waiter leaves the flight. -/
def leave (f : ℕ) (outcome : Outcome α ε) : World α ε :=
  (w.change f fun flight => { flight with waiters := max 0 (flight.waiters - 1) }).goto i c
    (.done (.waiter f) outcome)

/-- The next step of a call; `outcome` is what the operation does when it ends in this step. -/
def advance (outcome : Except ε (Option α)) (signalled : Bool) : World α ε :=
  match c.pc with
  | .admission =>
    if c.timeout.any (· < 0) then w.goto i c (.done .refused invalidTimeout) else enter w i c
  | .operating => w.goto i c (.publishing outcome)
  | .publishing outcome => publish w i c outcome
  | .removing outcome => remove w i c outcome
  | .joined f => w.goto i c (.waiting f (c.timeout.map (w.now + ·)) .event)
  | .waiting f deadline point => await w i c f deadline point signalled
  | .stopping f reason => stop w i c f reason
  | .readingError f =>
    match (w.heap f).error with
    | some e => w.goto i c (.leaving f (.error (.operation e)))
    | none => w.goto i c (.readingResult f)
  | .readingResult f => w.goto i c (.leaving f (.ok (w.heap f).result))
  | .leaving f outcome => leave w i c f outcome
  | .done _ _ => w

/-- What happens next: a call begins, the clock goes on, a cancel event is set or cleared, or a call takes its
next step. -/
inductive Event (α ε : Type)
  | call (key : RequestKey) (timeout : Option ℚ) (cancelEvent : Option ℕ)
  | tick (elapsed : ℚ)
  | cancel (event : ℕ) (isSet : Bool)
  | advance (i : ℕ) (outcome : Except ε (Option α)) (signalled : Bool)

def step (w : World α ε) : Event α ε → World α ε
  | .call key timeout cancelEvent =>
    { w with callers := w.callers ++ [⟨key, timeout, cancelEvent, .admission⟩] }
  | .tick elapsed => { w with now := w.now + max 0 elapsed }
  | .cancel event isSet => { w with cancelled := Function.update w.cancelled event isSet }
  | .advance i outcome signalled =>
    match w.callers[i]? with
    | none => w
    | some c => advance w i c outcome signalled

end SingleFlight

end SimplicioFast
