import SimplicioFast.Daemon.Protocol

/-!
# The resident daemon

`ResidentFastDaemon` runs a fixed crew of worker tasks over one queue.  A worker takes a request, waits until the
generation of the request is open, and calls the handler.  All tasks run on one event loop, so what happens between two
suspension points is one step here: `step` says what each event does to the daemon.

The events that the daemon does not decide are open: how and when the opener, the handler and the closer end, when a
submitter's deadline passes, and who cancels what.  A task that is asked to cancel while it waits for something passes
the cancellation on to what it waits for, and may still end in any way.
-/

namespace SimplicioFast

namespace Daemon

/-- The state of a future that is made by `submit`. -/
inductive FutureState
  | pending
  | cancelled
  | result (response : Json)
  | exception (failure : Failure)

/-- What is put into the queue: a request, and the number of its future. -/
structure Entry where
  request : DaemonRequest
  future : ℕ

/-- A pin: the generation itself when there is no opener, or what an opening task has returned. -/
inductive Pin
  | own (generation : ℕ)
  | opened (task : ℕ)
deriving DecidableEq

/-- How an opening task ends. -/
inductive OpenOutcome
  | pin
  | failed (exception : ℕ)
  | cancelled
deriving DecidableEq

/-- A task that runs the opener. -/
structure OpenTask where
  generation : ℕ
  outcome : Option OpenOutcome := none
  /-- A worker that waits for the task was cancelled, which cancels the task. -/
  cancelRequested : Bool := false

/-- Where a worker task is. -/
inductive Worker
  /-- It waits for the queue. -/
  | idle
  /-- It waits for an opening task; `mustCancel` when it was cancelled after the end of that task. -/
  | waiting (entry : Entry) (task : ℕ) (mustCancel : Bool)
  /-- The handler runs. -/
  | handling (entry : Entry)
  /-- The task has ended. -/
  | dead

namespace Worker

/-- The worker still consumes the queue. -/
def isAlive : Worker → Bool
  | .dead => false
  | _ => true

/-- The request that the worker is busy with. -/
def entry? : Worker → Option Entry
  | .waiting e _ _ => some e
  | .handling e => some e
  | _ => none

end Worker

/-- Where a call of `shutdown` is. -/
inductive Phase
  /-- It waits for the queue to be done. -/
  | draining
  /-- It has cancelled the workers and waits for their ends. -/
  | gathering (workers : List ℕ)
  /-- It hands the pins to the closer. -/
  | closing (pins : List Pin)

/-- The state names.  `STARTING` is never seen from outside. -/
inductive Mode
  | stopped
  | ready
  | draining
  | crashed
deriving DecidableEq

namespace Mode

def name : Mode → PyStr
  | stopped => "STOPPED"
  | ready => "READY"
  | draining => "DRAINING"
  | crashed => "CRASHED"

end Mode

end Daemon

open Daemon

/-- `ResidentFastDaemon`, with the tasks that run for it. -/
structure ResidentFastDaemon where
  mode : Mode := .stopped
  epoch : ℕ := 0
  accepted : ℕ := 0
  completed : ℕ := 0
  cancelled : ℕ := 0
  queue : List Entry := []
  /-- The entries that were put into the queue and are not reported as done. -/
  unfinished : ℕ := 0
  futures : List FutureState := []
  /-- The calls of `submit` that wait for their future. -/
  submitters : List Entry := []
  /-- All worker tasks that were ever made. -/
  workers : List Worker := []
  /-- `_workers`: the numbers of the workers of the last start. -/
  crew : List ℕ := []
  active : Dict PyStr ℕ := .empty
  terminal : Dict PyStr Json := .empty
  pins : Dict ℕ Pin := .empty
  /-- `_opening`: the opening task of a generation. -/
  opening : Dict ℕ ℕ := .empty
  /-- All opening tasks that were ever made. -/
  tasks : List OpenTask := []
  shutdowns : List Phase := []
  /-- The calls of `crash` that wait for the ends of the workers. -/
  crashes : List (List ℕ) := []
  /-- The pins that were handed to the closer, in order. -/
  closed : List Pin := []

namespace Daemon

/-- What a call of `submit` comes to at once. -/
inductive Reply
  | queued (entry : Entry)
  | replayed (response : Json)
  | rejected (failure : Failure)

/-- How a run of the handler ends. -/
inductive HandlerOutcome
  /-- `dict(result)` has these entries. -/
  | returned (fields : List (PyStr × Json))
  /-- `dict` or `json.dumps` raises `TypeError` or `ValueError` on the result. -/
  | invalid
  | raised (exception : ℕ)
  | cancelled

end Daemon

namespace ResidentFastDaemon

variable (cfg : Config) (d : ResidentFastDaemon)

/-! ## Futures and tasks -/

def future (f : ℕ) : FutureState := d.futures.getD f .pending

/-- `future.done()`. -/
def isDone (f : ℕ) : Bool :=
  match d.future f with
  | .pending => false
  | _ => true

/-- `future.cancelled()`. -/
def isCancelled (f : ℕ) : Bool :=
  match d.future f with
  | .cancelled => true
  | _ => false

/-- `if not future.done(): …` with a new state of the future. -/
def resolve (f : ℕ) (state : FutureState) : ResidentFastDaemon :=
  { d with futures := if d.isDone f then d.futures else d.futures.set f state }

/-- The outcome of an opening task that has ended. -/
def outcome? (t : ℕ) : Option OpenOutcome := (d.tasks[t]?).bind OpenTask.outcome

/-- `task.cancel()` of a worker.  An idle worker ends; one that waits for an opening task cancels that task, or is
cancelled itself when it is resumed.  What becomes of a handler is up to the handler. -/
def cancelWorker (w : ℕ) : ResidentFastDaemon :=
  match d.workers[w]? with
  | some .idle => { d with workers := d.workers.set w .dead }
  | some (.waiting e t _) =>
    match d.outcome? t with
    | none => { d with tasks := d.tasks.modify t fun task => { task with cancelRequested := true } }
    | some _ => { d with workers := d.workers.set w (.waiting e t true) }
  | _ => d

/-- `task.cancel()` of every worker of a list. -/
def cancelWorkers (ws : List ℕ) : ResidentFastDaemon := ws.foldl cancelWorker d

/-! ## Workers -/

/-- The end of a turn of `_worker`: the request is done, and the worker goes on as given. -/
def release (w : ℕ) (e : Entry) (worker : Worker) : ResidentFastDaemon :=
  { d with
    active := d.active.erase e.request.requestId
    unfinished := d.unfinished - 1
    workers := d.workers.set w worker }

/-- An exception ends the turn, and the worker takes the next request. -/
def fail (w : ℕ) (e : Entry) (failure : Failure) : ResidentFastDaemon :=
  (d.resolve e.future (.exception failure)).release w e .idle

/-- `CancelledError` ends the turn, and the worker with it. -/
def die (w : ℕ) (e : Entry) : ResidentFastDaemon :=
  ({ d with cancelled := d.cancelled + 1 }.resolve e.future (.exception .requestCancelled)).release w e .dead

/-- The response is kept and given to the submitter. -/
def complete (w : ℕ) (e : Entry) (response : Json) : ResidentFastDaemon :=
  ({ d with
    terminal := d.terminal.set e.request.requestId response
    completed := d.completed + 1 }.resolve e.future (.result response)).release w e .idle

def handle (w : ℕ) (e : Entry) : ResidentFastDaemon := { d with workers := d.workers.set w (.handling e) }

/-- `_pin` goes on behind `await task`. -/
def resume (w : ℕ) (e : Entry) (t : ℕ) (outcome : OpenOutcome) : ResidentFastDaemon :=
  match outcome with
  | .pin =>
    { d with
      pins := d.pins.set e.request.generation (.opened t)
      opening := d.opening.erase e.request.generation }.handle w e
  | .failed x => { d with opening := d.opening.erase e.request.generation }.fail w e (.raised x)
  | .cancelled => { d with opening := d.opening.erase e.request.generation }.die w e

/-- `_pin` up to its first suspension, and what follows where there is none. -/
def pin (w : ℕ) (e : Entry) : ResidentFastDaemon :=
  if (d.pins.get? e.request.generation).isSome then d.handle w e
  else if cfg.hasOpener = false then
    { d with pins := d.pins.set e.request.generation (.own e.request.generation) }.handle w e
  else match d.opening.get? e.request.generation with
    | none =>
      { d with
        tasks := d.tasks ++ [{ generation := e.request.generation }]
        opening := d.opening.set e.request.generation d.tasks.length
        workers := d.workers.set w (.waiting e d.tasks.length false) }
    | some t =>
      match d.outcome? t with
      | none => { d with workers := d.workers.set w (.waiting e t false) }
      | some outcome => d.resume w e t outcome

/-- An idle worker takes the next entry of the queue. -/
def take (w : ℕ) : ResidentFastDaemon :=
  match d.workers[w]?, d.queue with
  | some .idle, e :: rest =>
    if d.isCancelled e.future then { d with queue := rest, unfinished := d.unfinished - 1 }
    else { d with queue := rest, active := d.active.set e.request.requestId w }.pin cfg w e
  | _, _ => d

/-- A worker is resumed behind the end of the opening task that it waits for. -/
def wake (w : ℕ) : ResidentFastDaemon :=
  match d.workers[w]? with
  | some (.waiting e t mustCancel) =>
    match d.outcome? t with
    | some outcome => d.resume w e t (if mustCancel then .cancelled else outcome)
    | none => d
  | _ => d

def opened (t : ℕ) (outcome : OpenOutcome) : ResidentFastDaemon :=
  match d.outcome? t with
  | none => { d with tasks := d.tasks.modify t fun task => { task with outcome := some outcome } }
  | some _ => d

def handled (w : ℕ) (outcome : HandlerOutcome) (latencyNs : ℕ) : ResidentFastDaemon :=
  match d.workers[w]? with
  | some (.handling e) =>
    match outcome with
    | .returned fields =>
      if (Json.obj fields).isFinite then d.complete w e (response cfg d.epoch e.request fields latencyNs)
      else d.fail w e (.reason "protocol_result_invalid")
    | .invalid => d.fail w e (.reason "protocol_result_invalid")
    | .raised x => d.fail w e (.raised x)
    | .cancelled => d.die w e
  | _ => d

/-! ## Submitters -/

/-- A request is put into the queue with a new future. -/
def enqueue (request : DaemonRequest) : ResidentFastDaemon :=
  { d with
    accepted := d.accepted + 1
    queue := d.queue ++ [⟨request, d.futures.length⟩]
    unfinished := d.unfinished + 1
    futures := d.futures ++ [.pending]
    submitters := d.submitters ++ [⟨request, d.futures.length⟩] }

/-- `submit` up to its first suspension. -/
def submit (now : ℕ) (value : Json) : ResidentFastDaemon × Reply :=
  if d.mode ≠ .ready then (d, .rejected (.daemonError "daemon_not_ready" d.mode.name))
  else match parse value with
    | .error x => (d, .rejected x)
    | .ok request =>
      match d.terminal.get? request.requestId with
      | some (.obj fs) => (d, .replayed (.obj (Dict.setEntries "replay" (.bool true) fs)))
      | some v => (d, .replayed v)
      | none =>
        if (d.active.get? request.requestId).isSome then (d, .rejected (.reason "request_already_active"))
        else if request.deadlineNs ≤ now then (d, .rejected (.reason "deadline_expired"))
        else if cfg.queueCapacity ≤ d.queue.length then
          (d, .rejected (.daemonError "backpressure" "queue_capacity"))
        else (d.enqueue request, .queued ⟨request, d.futures.length⟩)

/-- The entry that `cancel` finds in the queue. -/
def queued? (requestId : PyStr) : Option Entry :=
  d.queue.find? fun e => e.request.requestId = requestId && !d.isDone e.future

def cancel (requestId : PyStr) : ResidentFastDaemon × Bool :=
  match d.active.get? requestId with
  | some w => (d.cancelWorker w, true)
  | none =>
    match d.queued? requestId with
    | some e => (d.resolve e.future (.exception .requestCancelled), true)
    | none => (d, false)

/-- The call of `submit` that waits for the future. -/
def submitter? (f : ℕ) : Option Entry := d.submitters.find? fun e => e.future = f

/-- The call of `submit` that waits for the future is over. -/
def dismiss (f : ℕ) : ResidentFastDaemon := { d with submitters := d.submitters.filter fun e => e.future ≠ f }

/-- The deadline of a call of `submit` passes: its future and its request are cancelled. -/
def expire (f : ℕ) : ResidentFastDaemon :=
  match d.submitter? f with
  | some e => (((d.dismiss f).resolve f .cancelled).cancel e.request.requestId).1
  | none => d

/-! ## Start and stop -/

def start : ResidentFastDaemon :=
  if d.mode = .stopped ∨ d.mode = .crashed then
    { d with
      epoch := d.epoch + 1
      crew := (List.range cfg.maxInflight).map (d.workers.length + ·)
      workers := d.workers ++ List.replicate cfg.maxInflight .idle
      mode := .ready }
  else d

def allDead (ws : List ℕ) : Bool := ws.all fun w => !(d.workers.getD w .dead).isAlive

/-- `shutdown` up to its first suspension. -/
def shutdown (drain : Bool) : ResidentFastDaemon :=
  if d.mode = .stopped then d
  else if drain then { d with mode := .draining, shutdowns := d.shutdowns ++ [.draining] }
  else
    let d' := { d with mode := .draining }.cancelWorkers d.crew
    { d' with shutdowns := d'.shutdowns ++ [.gathering d.crew] }

/-- The queue is done: the workers are cancelled. -/
def drained (i : ℕ) : ResidentFastDaemon :=
  match d.shutdowns[i]? with
  | some .draining =>
    if d.unfinished = 0 then
      let d' := d.cancelWorkers d.crew
      { d' with shutdowns := d'.shutdowns.set i (.gathering d.crew) }
    else d
  | _ => d

/-- The workers have ended: the pins are closed next. -/
def gathered (i : ℕ) : ResidentFastDaemon :=
  match d.shutdowns[i]? with
  | some (.gathering ws) =>
    if d.allDead ws then
      { d with crew := [], shutdowns := d.shutdowns.set i (.closing (if cfg.hasCloser then d.pins.values else [])) }
    else d
  | _ => d

/-- The closer is called with the next pin; a closer that raises ends the call of `shutdown`. -/
def close (i : ℕ) (returns : Bool) : ResidentFastDaemon :=
  match d.shutdowns[i]? with
  | some (.closing (p :: rest)) =>
    { d with
      closed := d.closed ++ [p]
      shutdowns := if returns then d.shutdowns.set i (.closing rest) else d.shutdowns.eraseIdx i }
  | _ => d

def finish (i : ℕ) : ResidentFastDaemon :=
  match d.shutdowns[i]? with
  | some (.closing []) => { d with pins := .empty, mode := .stopped, shutdowns := d.shutdowns.eraseIdx i }
  | _ => d

/-- `crash` up to its first suspension. -/
def crash : ResidentFastDaemon :=
  let d' := { d with mode := .crashed }.cancelWorkers d.crew
  { d' with crashes := d'.crashes ++ [d.crew] }

def crashed (i : ℕ) : ResidentFastDaemon :=
  match d.crashes[i]? with
  | some ws =>
    if d.allDead ws then { d with crew := [], active := .empty, crashes := d.crashes.eraseIdx i } else d
  | none => d

end ResidentFastDaemon

/-! ## Steps -/

namespace Daemon

/-- What happens next. -/
inductive Event
  | start
  | submit (now : ℕ) (value : Json)
  | cancel (requestId : PyStr)
  /-- The deadline of the call of `submit` with the given future passes. -/
  | expire (future : ℕ)
  /-- The call of `submit` with the given future returns or raises what the future holds, or is cancelled by its
  caller. -/
  | leave (future : ℕ)
  | take (worker : ℕ)
  | wake (worker : ℕ)
  | opened (task : ℕ) (outcome : OpenOutcome)
  | handled (worker : ℕ) (outcome : HandlerOutcome) (latencyNs : ℕ)
  | shutdown (drain : Bool)
  | drained (call : ℕ)
  | gathered (call : ℕ)
  | close (call : ℕ) (returns : Bool)
  | finish (call : ℕ)
  | crash
  | crashed (call : ℕ)

end Daemon

namespace ResidentFastDaemon

/-- What an event does; an event that cannot happen does nothing. -/
def step (cfg : Config) (d : ResidentFastDaemon) : Event → ResidentFastDaemon
  | .start => d.start cfg
  | .submit now value => (d.submit cfg now value).1
  | .cancel requestId => (d.cancel requestId).1
  | .expire f => d.expire f
  | .leave f => d.dismiss f
  | .take w => d.take cfg w
  | .wake w => d.wake w
  | .opened t outcome => d.opened t outcome
  | .handled w outcome latencyNs => d.handled cfg w outcome latencyNs
  | .shutdown drain => d.shutdown drain
  | .drained i => d.drained i
  | .gathered i => d.gathered cfg i
  | .close i returns => d.close i returns
  | .finish i => d.finish i
  | .crash => d.crash
  | .crashed i => d.crashed i

end ResidentFastDaemon

/-! ## Sample values -/

namespace Daemon

/-- `n + 1` workers, an opener and a closer. -/
def crewOf (n : ℕ) : Config where
  maxInflight := n + 1
  queueCapacity := 64
  hasOpener := true
  hasCloser := true
  maxInflight_pos := Nat.succ_pos n
  queueCapacity_pos := by decide +kernel

def requestJson (requestId : PyStr) : Json :=
  .obj [("schema", .str PROTOCOL_SCHEMA), ("request_id", .str requestId), ("slot_id", .str "s"),
    ("operation", .str "query"), ("generation", .int 1), ("deadline_ns", .int 1000)]

end Daemon

end SimplicioFast
