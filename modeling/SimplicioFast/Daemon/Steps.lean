import SimplicioFast.Daemon.Basic

/-!
# What one step of the daemon can do

The steps of a worker are put together from a few moves, and `take_cases` and `pin_cases` say which.  `Resumption` is
the move that the laws of the daemon turn on: a worker goes on behind the end of an opening.
-/

namespace SimplicioFast

open Daemon

namespace ResidentFastDaemon

variable {cfg : Config} {d : ResidentFastDaemon} {w v t f : ℕ} {e : Entry}

/-! ## Workers -/

/-- The request that a worker is busy with. -/
def holding (d : ResidentFastDaemon) (w : ℕ) : Option Entry := (d.workers[w]?).bind Worker.entry?

/-- The workers that consume the queue. -/
def consumers (d : ResidentFastDaemon) : ℕ := d.workers.countP Worker.isAlive

theorem lt_of_worker {x : Worker} (h : d.workers[w]? = some x) : w < d.workers.length :=
  (List.getElem?_eq_some_iff.1 h).1

theorem holding_of_worker {x : Worker} (h : d.workers[w]? = some x) : d.holding w = x.entry? := by
  rw [holding, h]
  rfl

theorem getElem?_set_worker {ws : List Worker} {x : Worker} (h : w < ws.length) :
    (ws.set w x)[v]? = if v = w then some x else ws[v]? := by
  rw [List.getElem?_set]
  by_cases same : w = v
  · subst same
    rw [if_pos rfl, if_pos h, if_pos rfl]
  · rw [if_neg same, if_neg (Ne.symm same)]

theorem countP_set_worker {ws : List Worker} {x y : Worker} (h : ws[w]? = some x) :
    (ws.set w y).countP Worker.isAlive + (if x.isAlive then 1 else 0) =
      ws.countP Worker.isAlive + (if y.isAlive then 1 else 0) := by
  induction ws generalizing w with
  | nil => simp at h
  | cons z ws ih =>
    cases w with
    | zero =>
      obtain rfl : z = x := by simpa using h
      rw [List.set_cons_zero, List.countP_cons, List.countP_cons]
      omega
    | succ w =>
      rw [List.set_cons_succ, List.countP_cons, List.countP_cons]
      have := ih (w := w) (by simpa using h)
      omega

/-! ## Moves -/

/-- The entry at the front leaves the queue and becomes the request of a worker. -/
def begin (d : ResidentFastDaemon) (w : ℕ) (e : Entry) (rest : List Entry) : ResidentFastDaemon :=
  { d with queue := rest, active := d.active.set e.request.requestId w }

/-- The entry at the front leaves the queue without a look at it. -/
def skip (d : ResidentFastDaemon) (rest : List Entry) : ResidentFastDaemon :=
  { d with queue := rest, unfinished := d.unfinished - 1 }

def launch (d : ResidentFastDaemon) (w : ℕ) (e : Entry) : ResidentFastDaemon :=
  { d with
    tasks := d.tasks ++ [{ generation := e.request.generation }]
    opening := d.opening.set e.request.generation d.tasks.length
    workers := d.workers.set w (.waiting e d.tasks.length false) }

/-- The worker waits for an opening that is under way. -/
def join (d : ResidentFastDaemon) (w : ℕ) (e : Entry) (t : ℕ) : ResidentFastDaemon :=
  { d with workers := d.workers.set w (.waiting e t false) }

def ownPin (d : ResidentFastDaemon) (e : Entry) : ResidentFastDaemon :=
  { d with pins := d.pins.set e.request.generation (.own e.request.generation) }

/-- The moves that start a request. -/
inductive Starts (cfg : Config) (d : ResidentFastDaemon) (w : ℕ) (e : Entry) : ResidentFastDaemon → Prop
  | pinned (there : d.pins.get? e.request.generation ≠ none) : Starts cfg d w e (d.handle w e)
  | own (absent : d.pins.get? e.request.generation = none) (plain : cfg.hasOpener = false) :
    Starts cfg d w e ((d.ownPin e).handle w e)
  | launched (opens : cfg.hasOpener = true) (absent : d.pins.get? e.request.generation = none)
      (closed : d.opening.get? e.request.generation = none) :
    Starts cfg d w e (d.launch w e)
  | joined (opens : cfg.hasOpener = true) (absent : d.pins.get? e.request.generation = none) (t : ℕ)
      (running : d.opening.get? e.request.generation = some t) (open_ : d.outcome? t = none) :
    Starts cfg d w e (d.join w e t)
  | resumed (opens : cfg.hasOpener = true) (absent : d.pins.get? e.request.generation = none) (t : ℕ)
      (running : d.opening.get? e.request.generation = some t) (o : OpenOutcome) (ended : d.outcome? t = some o) :
    Starts cfg d w e (d.resume w e t o)

theorem starts_pin (cfg : Config) (d : ResidentFastDaemon) (w : ℕ) (e : Entry) : Starts cfg d w e (d.pin cfg w e) := by
  unfold pin
  split_ifs with pinned plain
  · exact .pinned (Option.isSome_iff_ne_none.1 pinned)
  · exact .own (by simpa using pinned) plain
  · have absent : d.pins.get? e.request.generation = none := by simpa using pinned
    have opens : cfg.hasOpener = true := by simpa using plain
    split
    · rename_i closed
      exact .launched opens absent closed
    · rename_i t running
      split
      · rename_i open_
        exact .joined opens absent t running open_
      · rename_i o ended
        exact .resumed opens absent t running o ended

/-- What `take` does. -/
inductive Takes (cfg : Config) (d : ResidentFastDaemon) (w : ℕ) : ResidentFastDaemon → Prop
  | nothing : Takes cfg d w d
  | skipped (idle : d.workers[w]? = some .idle) (e : Entry) (rest : List Entry) (front : d.queue = e :: rest)
      (cancelled : d.isCancelled e.future = true) : Takes cfg d w (d.skip rest)
  | started (idle : d.workers[w]? = some .idle) (e : Entry) (rest : List Entry) (front : d.queue = e :: rest)
      (live : d.isCancelled e.future = false) (d' : ResidentFastDaemon) (starts : Starts cfg (d.begin w e rest) w e d') :
    Takes cfg d w d'

theorem takes_take (cfg : Config) (d : ResidentFastDaemon) (w : ℕ) : Takes cfg d w (d.take cfg w) := by
  unfold take
  split
  · rename_i e rest idle front
    split_ifs with cancelled
    · exact .skipped idle e rest front cancelled
    · exact .started idle e rest front (Bool.eq_false_of_not_eq_true cancelled) _ (starts_pin cfg _ w e)
  · exact .nothing

/-- A worker that goes on behind the end of an opening, and what it sees. -/
structure Resumption where
  worker : ℕ
  entry : Entry
  task : ℕ
  outcome : OpenOutcome

/-- The resumption of a worker that has waited. -/
def wakes? (d : ResidentFastDaemon) (w : ℕ) : Option Resumption :=
  match d.workers[w]? with
  | some (.waiting e t mustCancel) => (d.outcome? t).map fun o => ⟨w, e, t, if mustCancel then .cancelled else o⟩
  | _ => none

/-- The resumption of a worker that takes a request whose opening has ended. -/
def passes? (cfg : Config) (d : ResidentFastDaemon) (w : ℕ) : Option Resumption :=
  match d.workers[w]?, d.queue with
  | some .idle, e :: _ =>
    if d.isCancelled e.future ∨ (d.pins.get? e.request.generation).isSome ∨ cfg.hasOpener = false then none
    else (d.opening.get? e.request.generation).bind fun t => (d.outcome? t).map fun o => ⟨w, e, t, o⟩
  | _, _ => none

/-- The resumption that an event brings about. -/
def resumption? (cfg : Config) (d : ResidentFastDaemon) : Event → Option Resumption
  | .wake w => d.wakes? w
  | .take w => d.passes? cfg w
  | _ => none

/-- What `wake` does. -/
inductive Wakes (d : ResidentFastDaemon) (w : ℕ) : ResidentFastDaemon → Prop
  | nothing : Wakes d w d
  | resumed (e : Entry) (t : ℕ) (must : Bool) (waits : d.workers[w]? = some (.waiting e t must)) (o : OpenOutcome)
      (ended : d.outcome? t = some o) (seen : d.wakes? w = some ⟨w, e, t, if must then .cancelled else o⟩) :
    Wakes d w (d.resume w e t (if must then .cancelled else o))

theorem wakes_wake (d : ResidentFastDaemon) (w : ℕ) : Wakes d w (d.wake w) := by
  unfold wake
  split
  · rename_i e t must waits
    split
    · rename_i o ended
      refine .resumed e t must waits o ended ?_
      unfold wakes?
      rw [waits]
      dsimp only
      rw [ended]
      rfl
    · exact .nothing
  · exact .nothing

theorem passes?_eq {rest : List Entry} {o : OpenOutcome} (idle : d.workers[w]? = some .idle) (front : d.queue = e :: rest)
    (live : d.isCancelled e.future = false) (opens : cfg.hasOpener = true)
    (absent : d.pins.get? e.request.generation = none) (running : d.opening.get? e.request.generation = some t)
    (ended : d.outcome? t = some o) : d.passes? cfg w = some ⟨w, e, t, o⟩ := by
  unfold passes?
  rw [idle, front]
  dsimp only
  rw [if_neg, running, Option.bind_some, ended]
  · rfl
  · rw [live, absent, opens]
    simp

theorem passes?_some {r : Resumption} (h : d.passes? cfg w = some r) : ∃ rest, d.workers[w]? = some .idle ∧
    d.queue = r.entry :: rest ∧ r.worker = w ∧
      d.take cfg w = (d.begin w r.entry rest).resume w r.entry r.task r.outcome := by
  unfold passes? at h
  split at h
  · rename_i e rest idle front
    split_ifs at h with other
    rw [not_or, not_or] at other
    obtain ⟨live, absent, opens⟩ := other
    obtain ⟨t, running, h⟩ := Option.bind_eq_some_iff.1 h
    obtain ⟨o, ended, rfl⟩ := Option.map_eq_some_iff.1 h
    refine ⟨rest, idle, front, rfl, ?_⟩
    unfold take
    rw [idle, front]
    dsimp only
    rw [if_neg live]
    unfold pin
    rw [if_neg (by exact absent), if_neg (by exact opens)]
    erw [running]
    dsimp only
    erw [ended]
    rfl
  · cases h

theorem wakes?_some {r : Resumption} (h : d.wakes? w = some r) : ∃ must, d.workers[w]? = some (.waiting r.entry r.task must) ∧
    r.worker = w ∧ d.wake w = d.resume w r.entry r.task r.outcome := by
  unfold wakes? at h
  split at h
  · rename_i e t must waits
    obtain ⟨o, ended, rfl⟩ := Option.map_eq_some_iff.1 h
    refine ⟨must, waits, rfl, ?_⟩
    unfold wake
    rw [waits]
    dsimp only
    rw [ended]
  · cases h

/-! ## What the moves leave alone -/

@[simp] theorem holding_set {x : Worker} (h : w < d.workers.length) :
    holding { d with workers := d.workers.set w x } v = if v = w then x.entry? else d.holding v := by
  show ((d.workers.set w x)[v]?).bind _ = _
  rw [getElem?_set_worker h]
  by_cases same : v = w
  · rw [if_pos same, if_pos same]
    rfl
  · rw [if_neg same, if_neg same]
    rfl

/-- `cancelWorker` changes workers and opening tasks only. -/
theorem cancelWorker_eq (d : ResidentFastDaemon) (w : ℕ) :
    ∃ ws ts, d.cancelWorker w = { d with workers := ws, tasks := ts } := by
  unfold cancelWorker
  split
  · exact ⟨_, _, rfl⟩
  · split <;> exact ⟨_, _, rfl⟩
  · exact ⟨_, _, rfl⟩

theorem cancelWorkers_eq (d : ResidentFastDaemon) (l : List ℕ) :
    ∃ ws ts, d.cancelWorkers l = { d with workers := ws, tasks := ts } := by
  induction l generalizing d with
  | nil => exact ⟨_, _, rfl⟩
  | cons w l ih =>
    obtain ⟨ws, ts, first⟩ := cancelWorker_eq d w
    obtain ⟨ws', ts', rest⟩ := ih (d.cancelWorker w)
    refine ⟨ws', ts', ?_⟩
    show cancelWorkers (d.cancelWorker w) l = _
    rw [rest, first]

/-- `cancelWorker` takes no request away from a worker. -/
theorem holding_cancelWorker (d : ResidentFastDaemon) (w v : ℕ) : (d.cancelWorker w).holding v = d.holding v := by
  unfold cancelWorker
  split
  · rename_i idle
    rw [holding_set (lt_of_worker idle)]
    split_ifs with same
    · rw [same, holding, idle]
      rfl
    · rfl
  · rename_i e t must waits
    split
    · rfl
    · rw [holding_set (lt_of_worker waits)]
      split_ifs with same
      · rw [same, holding, waits]
        rfl
      · rfl
  · rfl

theorem holding_cancelWorkers (d : ResidentFastDaemon) (ws : List ℕ) (v : ℕ) :
    (d.cancelWorkers ws).holding v = d.holding v := by
  induction ws generalizing d with
  | nil => rfl
  | cons w ws ih => exact (ih (d.cancelWorker w)).trans (holding_cancelWorker d w v)

theorem handling_cancelWorker (d : ResidentFastDaemon) (w v : ℕ) (e : Entry) :
    (d.cancelWorker w).workers[v]? = some (.handling e) ↔ d.workers[v]? = some (.handling e) := by
  unfold cancelWorker
  split
  · rename_i idle
    rw [getElem?_set_worker (lt_of_worker idle)]
    split_ifs with same
    · rw [same, idle]
      simp
    · rfl
  · rename_i waits
    split
    · rfl
    · rw [getElem?_set_worker (lt_of_worker waits)]
      split_ifs with same
      · rw [same, waits]
        simp
      · rfl
  · rfl

theorem handling_cancelWorkers (d : ResidentFastDaemon) (ws : List ℕ) (v : ℕ) (e : Entry) :
    (d.cancelWorkers ws).workers[v]? = some (.handling e) ↔ d.workers[v]? = some (.handling e) := by
  induction ws generalizing d with
  | nil => rfl
  | cons w ws ih => exact (ih (d.cancelWorker w)).trans (handling_cancelWorker d w v e)

/-- What a step that is not about a request leaves alone. -/
structure Frame (d d' : ResidentFastDaemon) : Prop where
  holding : ∀ v, d'.holding v = d.holding v
  handling : ∀ (v : ℕ) (e : Entry), d'.workers[v]? = some (.handling e) ↔ d.workers[v]? = some (.handling e)
  queue : d'.queue = d.queue
  futures : d'.futures = d.futures
  terminal : d'.terminal = d.terminal
  opening : d'.opening = d.opening
  active : d'.active = d.active

theorem Frame.refl (d : ResidentFastDaemon) : Frame d d := ⟨fun _ => rfl, fun _ _ => .rfl, rfl, rfl, rfl, rfl, rfl⟩

theorem frame_cancelWorker (d : ResidentFastDaemon) (w : ℕ) : Frame d (d.cancelWorker w) := by
  obtain ⟨ws, ts, e⟩ := cancelWorker_eq d w
  refine ⟨holding_cancelWorker d w, handling_cancelWorker d w, ?_, ?_, ?_, ?_, ?_⟩ <;> rw [e]

theorem frame_cancelWorkers (d : ResidentFastDaemon) (l : List ℕ) : Frame d (d.cancelWorkers l) := by
  obtain ⟨ws, ts, e⟩ := cancelWorkers_eq d l
  refine ⟨holding_cancelWorkers d l, handling_cancelWorkers d l, ?_, ?_, ?_, ?_, ?_⟩ <;> rw [e]

theorem frame_start (cfg : Config) (d : ResidentFastDaemon) : Frame d (d.start cfg) := by
  unfold start
  split_ifs
  · have added (v : ℕ) : (d.workers ++ List.replicate cfg.maxInflight Worker.idle)[v]? = d.workers[v]? ∨
        (d.workers ++ List.replicate cfg.maxInflight Worker.idle)[v]? = some .idle ∧ d.workers[v]? = none := by
      by_cases old : v < d.workers.length
      · exact .inl (List.getElem?_append_left old)
      · rw [List.getElem?_append_right (by omega), List.getElem?_eq_none (by omega : d.workers.length ≤ v),
          List.getElem?_replicate]
        split_ifs
        · exact .inr ⟨rfl, rfl⟩
        · exact .inl rfl
    refine ⟨fun v => ?_, fun v e => ?_, rfl, rfl, rfl, rfl, rfl⟩
    · show ((d.workers ++ List.replicate cfg.maxInflight Worker.idle)[v]?).bind _ = (d.workers[v]?).bind _
      rcases added v with same | ⟨new, none⟩
      · rw [same]
      · rw [new, none]
        rfl
    · show (d.workers ++ List.replicate cfg.maxInflight Worker.idle)[v]? = _ ↔ _
      rcases added v with same | ⟨new, none⟩
      · rw [same]
      · rw [new, none]
        simp
  · exact .refl d

theorem frame_opened (d : ResidentFastDaemon) (t : ℕ) (o : OpenOutcome) : Frame d (d.opened t o) := by
  unfold opened
  split
  · exact ⟨fun _ => rfl, fun _ _ => .rfl, rfl, rfl, rfl, rfl, rfl⟩
  · exact .refl d

theorem frame_shutdown (d : ResidentFastDaemon) (drain : Bool) : Frame d (d.shutdown drain) := by
  unfold shutdown
  split_ifs
  · exact .refl d
  · exact ⟨fun _ => rfl, fun _ _ => .rfl, rfl, rfl, rfl, rfl, rfl⟩
  · obtain ⟨holding, handling, queue, futures, terminal, opening, active⟩ :=
      frame_cancelWorkers { d with mode := .draining } d.crew
    exact ⟨holding, handling, queue, futures, terminal, opening, active⟩

theorem frame_drained (d : ResidentFastDaemon) (i : ℕ) : Frame d (d.drained i) := by
  unfold drained
  split
  · split_ifs
    · obtain ⟨holding, handling, queue, futures, terminal, opening, active⟩ := frame_cancelWorkers d d.crew
      exact ⟨holding, handling, queue, futures, terminal, opening, active⟩
    · exact .refl d
  · exact .refl d

theorem frame_gathered (cfg : Config) (d : ResidentFastDaemon) (i : ℕ) : Frame d (d.gathered cfg i) := by
  unfold gathered
  split
  · rename_i ws _
    by_cases ended : d.allDead ws
    · rw [if_pos ended]
      exact ⟨fun _ => rfl, fun _ _ => .rfl, rfl, rfl, rfl, rfl, rfl⟩
    · rw [if_neg ended]
      exact .refl d
  · exact .refl d

theorem frame_close (d : ResidentFastDaemon) (i : ℕ) (returns : Bool) : Frame d (d.close i returns) := by
  unfold close
  split
  · exact ⟨fun _ => rfl, fun _ _ => .rfl, rfl, rfl, rfl, rfl, rfl⟩
  · exact .refl d

theorem frame_finish (d : ResidentFastDaemon) (i : ℕ) : Frame d (d.finish i) := by
  unfold finish
  split
  · exact ⟨fun _ => rfl, fun _ _ => .rfl, rfl, rfl, rfl, rfl, rfl⟩
  · exact .refl d

theorem frame_crash (d : ResidentFastDaemon) : Frame d d.crash := by
  obtain ⟨holding, handling, queue, futures, terminal, opening, active⟩ :=
    frame_cancelWorkers { d with mode := .crashed } d.crew
  exact ⟨holding, handling, queue, futures, terminal, opening, active⟩

theorem frame_crashed (d : ResidentFastDaemon) (i : ℕ) :
    Frame { d with active := (d.crashed i).active } (d.crashed i) := by
  unfold crashed
  split
  · split_ifs
    · exact ⟨fun _ => rfl, fun _ _ => .rfl, rfl, rfl, rfl, rfl, rfl⟩
    · exact .refl d
  · exact .refl d

theorem active_crashed (d : ResidentFastDaemon) (i : ℕ) : (d.crashed i).active = d.active ∨
    (d.crashed i).active = .empty ∧ ∃ ws, d.crashes[i]? = some ws ∧ d.allDead ws = true := by
  unfold crashed
  split
  · rename_i ws call
    split_ifs with ended
    · exact .inr ⟨rfl, ws, call, ended⟩
    · exact .inl rfl
  · exact .inl rfl

/-- What `submit` does. -/
inductive Submits (cfg : Config) (d : ResidentFastDaemon) (now : ℕ) (value : Json) : ResidentFastDaemon → Prop
  | nothing : Submits cfg d now value d
  | queued (request : DaemonRequest) (ready : d.mode = .ready) (read : parse value = .ok request)
      (fresh : d.terminal.get? request.requestId = none) (inactive : d.active.get? request.requestId = none)
      (timely : now < request.deadlineNs) (room : d.queue.length < cfg.queueCapacity) :
    Submits cfg d now value (d.enqueue request)

theorem submits_submit (cfg : Config) (d : ResidentFastDaemon) (now : ℕ) (value : Json) :
    Submits cfg d now value (d.submit cfg now value).1 := by
  unfold submit
  by_cases ready : d.mode ≠ .ready
  · rw [if_pos ready]
    exact .nothing
  · rw [if_neg ready]
    split
    · exact .nothing
    · rename_i request read
      split
      · exact .nothing
      · exact .nothing
      · rename_i fresh
        split_ifs with active late full
        · exact .nothing
        · exact .nothing
        · exact .nothing
        · exact .queued request (not_not.1 ready) read fresh (by simpa using active) (by omega) (by omega)

/-- What `cancel` does. -/
inductive Cancels (d : ResidentFastDaemon) (id : PyStr) : ResidentFastDaemon → Prop
  | worker (w : ℕ) (busy : d.active.get? id = some w) : Cancels d id (d.cancelWorker w)
  | queued (e : Entry) (found : d.queued? id = some e) (inactive : d.active.get? id = none) :
    Cancels d id (d.resolve e.future (.exception .requestCancelled))
  | nothing : Cancels d id d

theorem cancels_cancel (d : ResidentFastDaemon) (id : PyStr) : Cancels d id (d.cancel id).1 := by
  unfold cancel
  split
  · rename_i w busy
    exact .worker w busy
  · rename_i inactive
    split
    · rename_i e found
      exact .queued e found inactive
    · exact .nothing

/-- What `expire` does. -/
inductive Expires (d : ResidentFastDaemon) (f : ℕ) : ResidentFastDaemon → Prop
  | expired (e : Entry) (waits : d.submitter? f = some e) (d' : ResidentFastDaemon)
      (cancels : Cancels ((d.dismiss f).resolve f .cancelled) e.request.requestId d') : Expires d f d'
  | nothing : Expires d f d

theorem expires_expire (d : ResidentFastDaemon) (f : ℕ) : Expires d f (d.expire f) := by
  unfold expire
  split
  · rename_i e waits
    exact .expired e waits _ (cancels_cancel _ _)
  · exact .nothing

/-- What the end of a handler does. -/
inductive Handles (cfg : Config) (d : ResidentFastDaemon) (w : ℕ) : HandlerOutcome → ResidentFastDaemon → Prop
  | completed (e : Entry) (busy : d.workers[w]? = some (.handling e)) (fields : List (PyStr × Json)) (latency : ℕ)
      (finite : (Json.obj fields).isFinite = true) :
    Handles cfg d w (.returned fields) (d.complete w e (response cfg d.epoch e.request fields latency))
  | unwritable (e : Entry) (busy : d.workers[w]? = some (.handling e)) (fields : List (PyStr × Json))
      (infinite : (Json.obj fields).isFinite = false) :
    Handles cfg d w (.returned fields) (d.fail w e (.reason "protocol_result_invalid"))
  | invalid (e : Entry) (busy : d.workers[w]? = some (.handling e)) :
    Handles cfg d w .invalid (d.fail w e (.reason "protocol_result_invalid"))
  | raised (e : Entry) (busy : d.workers[w]? = some (.handling e)) (x : ℕ) :
    Handles cfg d w (.raised x) (d.fail w e (.raised x))
  | cancelled (e : Entry) (busy : d.workers[w]? = some (.handling e)) : Handles cfg d w .cancelled (d.die w e)
  | nothing (o : HandlerOutcome) (idle : ∀ e, d.workers[w]? ≠ some (.handling e)) : Handles cfg d w o d

theorem handles_handled (cfg : Config) (d : ResidentFastDaemon) (w : ℕ) (o : HandlerOutcome) (latency : ℕ) :
    Handles cfg d w o (d.handled cfg w o latency) := by
  unfold handled
  split
  · rename_i e busy
    cases o with
    | returned fields =>
      dsimp only
      split_ifs with finite
      · exact .completed e busy fields latency finite
      · exact .unwritable e busy fields (Bool.eq_false_of_not_eq_true finite)
    | invalid => exact .invalid e busy
    | raised x => exact .raised e busy x
    | cancelled => exact .cancelled e busy
  · rename_i other
    exact .nothing o fun e busy => other e busy

/-! ## The table of active requests -/

/-- Every entry of `_active` names a worker that is busy with a request of that id. -/
def Listed (d : ResidentFastDaemon) : Prop :=
  ∀ id v, d.active.get? id = some v → ∃ e, d.holding v = some e ∧ e.request.requestId = id

/-- The table, where one worker is at a turn with the given request. -/
def ListedFor (d : ResidentFastDaemon) (w : ℕ) (e : Entry) : Prop :=
  ∀ id v, d.active.get? id = some v →
    if v = w then e.request.requestId = id else ∃ e', d.holding v = some e' ∧ e'.request.requestId = id

theorem Listed.for (h : Listed d) (held : d.holding w = some e) : d.ListedFor w e := by
  intro id v found
  obtain ⟨e', own, same⟩ := h id v found
  split_ifs with turn
  · subst turn
    rw [Option.some.inj (held.symm.trans own)]
    exact same
  · exact ⟨e', own, same⟩

theorem Listed.begin (h : Listed d) (idle : d.workers[w]? = some .idle) (rest : List Entry) :
    (d.begin w e rest).ListedFor w e := by
  intro id v found
  have found : (d.active.set e.request.requestId w).get? id = some v := found
  rw [Dict.get?_set] at found
  split_ifs at found with same
  · rw [if_pos (Option.some.inj found).symm, same]
  · obtain ⟨e', own, named⟩ := h id v found
    split_ifs with turn
    · rw [turn, holding, idle] at own
      cases own
    · exact ⟨e', own, named⟩

theorem ListedFor.put (h : d.ListedFor w e) (slot : w < d.workers.length) {x : Worker} (busy : x.entry? = some e) :
    Listed { d with workers := d.workers.set w x } := by
  intro id v found
  have row := h id v found
  rw [holding_set slot]
  split_ifs at row ⊢ with turn
  · exact ⟨e, busy, row⟩
  · exact row

theorem ListedFor.release (h : d.ListedFor w e) (slot : w < d.workers.length) (x : Worker) :
    Listed (d.release w e x) := by
  intro id v found
  have found : (d.active.erase e.request.requestId).get? id = some v := found
  rw [Dict.get?_erase] at found
  split_ifs at found with same
  have row := h id v found
  show ∃ e', holding { d with workers := d.workers.set w x } v = some e' ∧ _
  rw [holding_set slot]
  split_ifs at row ⊢ with turn
  · exact absurd row.symm same
  · exact row

theorem ListedFor.resume (h : d.ListedFor w e) (slot : w < d.workers.length) (t : ℕ) (o : OpenOutcome) :
    Listed (d.resume w e t o) := by
  cases o with
  | pin => exact ListedFor.put (d := { d with pins := _, opening := _ }) h slot rfl
  | failed x => exact ListedFor.release (d := resolve { d with opening := _ } _ _) h slot _
  | cancelled => exact ListedFor.release (d := resolve { d with opening := _, cancelled := _ } _ _) h slot _

theorem ListedFor.starts {d' : ResidentFastDaemon} (h : d.ListedFor w e) (slot : w < d.workers.length)
    (starts : Starts cfg d w e d') : Listed d' := by
  cases starts with
  | pinned => exact h.put slot rfl
  | own => exact ListedFor.put (d := d.ownPin e) h slot rfl
  | launched => exact ListedFor.put (d := { d with tasks := _, opening := _ }) h slot rfl
  | joined => exact h.put slot rfl
  | resumed => exact h.resume slot _ _

theorem Listed.frame {d' : ResidentFastDaemon} (h : Listed d) (frame : Frame d d') : Listed d' := by
  intro id v found
  rw [frame.active] at found
  obtain ⟨e, own, named⟩ := h id v found
  exact ⟨e, (frame.holding v).trans own, named⟩

theorem Listed.cancels {d' : ResidentFastDaemon} {id : PyStr} (h : Listed d) (cancels : Cancels d id d') : Listed d' := by
  cases cancels with
  | worker w => exact h.frame (frame_cancelWorker d w)
  | queued e => exact h
  | nothing => exact h

theorem Listed.handled (h : Listed d) (busy : d.workers[w]? = some (.handling e)) (d' : ResidentFastDaemon)
    (workers : d'.workers = d.workers) (active : d'.active = d.active) (x : Worker) : Listed (d'.release w e x) := by
  have listed : ListedFor d' w e := by
    intro id v found
    rw [active] at found
    have row := h.for (holding_of_worker busy) id v found
    rw [holding, workers]
    exact row
  exact listed.release (by rw [workers]; exact lt_of_worker busy) x

theorem listed_step (h : Listed d) (event : Event) : Listed (d.step cfg event) := by
  cases event with
  | start => exact h.frame (frame_start cfg d)
  | submit now value =>
    have submits := submits_submit cfg d now value
    show Listed (d.submit cfg now value).1
    generalize (d.submit cfg now value).1 = d' at submits
    cases submits with
    | nothing => exact h
    | queued => exact h
  | cancel id => exact h.cancels (cancels_cancel d id)
  | expire f =>
    have expires := expires_expire d f
    show Listed (d.expire f)
    generalize d.expire f = d' at expires
    cases expires with
    | expired e _ _ cancels => exact Listed.cancels (d := (d.dismiss f).resolve f .cancelled) h cancels
    | nothing => exact h
  | leave f => exact h
  | take w =>
    have takes := takes_take cfg d w
    show Listed (d.take cfg w)
    generalize d.take cfg w = d' at takes
    cases takes with
    | nothing => exact h
    | skipped => exact h
    | started idle e rest _ _ _ starts => exact (h.begin idle rest).starts (lt_of_worker idle) starts
  | wake w =>
    have wakes := wakes_wake d w
    show Listed (d.wake w)
    generalize d.wake w = d' at wakes
    cases wakes with
    | nothing => exact h
    | resumed e t must waits o => exact (h.for (holding_of_worker waits)).resume (lt_of_worker waits) t _
  | opened t o => exact h.frame (frame_opened d t o)
  | handled w o latency =>
    have handles := handles_handled cfg d w o latency
    show Listed (d.handled cfg w o latency)
    generalize d.handled cfg w o latency = d' at handles
    cases handles with
    | completed e busy => exact h.handled busy (resolve { d with terminal := _, completed := _ } _ _) rfl rfl _
    | unwritable e busy => exact h.handled busy (d.resolve _ _) rfl rfl _
    | invalid e busy => exact h.handled busy (d.resolve _ _) rfl rfl _
    | raised e busy => exact h.handled busy (d.resolve _ _) rfl rfl _
    | cancelled e busy => exact h.handled busy (resolve { d with cancelled := _ } _ _) rfl rfl _
    | nothing => exact h
  | shutdown drain => exact h.frame (frame_shutdown d drain)
  | drained i => exact h.frame (frame_drained d i)
  | gathered i => exact h.frame (frame_gathered cfg d i)
  | close i returns => exact h.frame (frame_close d i returns)
  | finish i => exact h.frame (frame_finish d i)
  | crash => exact h.frame (frame_crash d)
  | crashed i =>
    refine Listed.frame (d := { d with active := (d.crashed i).active }) (fun id v found => ?_) (frame_crashed d i)
    rcases active_crashed d i with same | ⟨none, -⟩
    · rw [same] at found
      exact h id v found
    · rw [none] at found
      cases found

/-! ## The turn of a worker -/

/-- The worker stays busy with the request `e`, as `x` says. -/
structure Keeps (d : ResidentFastDaemon) (w : ℕ) (e : Entry) (x : Worker) (d' : ResidentFastDaemon) : Prop where
  own : x.entry? = some e
  workers : d'.workers = d.workers.set w x
  queue : d'.queue = d.queue
  futures : d'.futures = d.futures
  terminal : d'.terminal = d.terminal
  active : d'.active = d.active

/-- The worker is done with the request `e`, and goes on as `x` says. -/
structure Ends (d : ResidentFastDaemon) (w : ℕ) (e : Entry) (x : Worker) (state : FutureState)
    (d' : ResidentFastDaemon) : Prop where
  free : x.entry? = none
  workers : d'.workers = d.workers.set w x
  queue : d'.queue = d.queue
  done : state ≠ .pending
  futures : d'.futures = (d.resolve e.future state).futures
  terminal : d'.terminal = d.terminal ∨ ∃ r, d'.terminal = d.terminal.set e.request.requestId r
  active : d'.active = d.active.erase e.request.requestId

/-- What a move of a worker makes of its turn with a request. -/
def Turn (d : ResidentFastDaemon) (w : ℕ) (e : Entry) (d' : ResidentFastDaemon) : Prop :=
  (∃ x, Keeps d w e x d') ∨ ∃ x state, Ends d w e x state d'

theorem Turn.keeps {d' : ResidentFastDaemon} {x : Worker} (own : x.entry? = some e)
    (workers : d'.workers = d.workers.set w x) (queue : d'.queue = d.queue) (futures : d'.futures = d.futures)
    (terminal : d'.terminal = d.terminal) (active : d'.active = d.active) : Turn d w e d' :=
  .inl ⟨x, own, workers, queue, futures, terminal, active⟩

theorem ends_fail (d : ResidentFastDaemon) (w : ℕ) (e : Entry) (x : Failure) :
    Ends d w e .idle (.exception x) (d.fail w e x) :=
  ⟨rfl, rfl, rfl, nofun, rfl, .inl rfl, rfl⟩

theorem ends_die (d : ResidentFastDaemon) (w : ℕ) (e : Entry) :
    Ends d w e .dead (.exception .requestCancelled) (d.die w e) :=
  ⟨rfl, rfl, rfl, nofun, rfl, .inl rfl, rfl⟩

theorem ends_complete (d : ResidentFastDaemon) (w : ℕ) (e : Entry) (r : Json) :
    Ends d w e .idle (.result r) (d.complete w e r) :=
  ⟨rfl, rfl, rfl, nofun, rfl, .inr ⟨r, rfl⟩, rfl⟩

theorem turn_resume (d : ResidentFastDaemon) (w : ℕ) (e : Entry) (t : ℕ) (o : OpenOutcome) :
    Turn d w e (d.resume w e t o) := by
  cases o with
  | pin => exact .keeps (x := .handling e) rfl rfl rfl rfl rfl rfl
  | failed x => exact .inr ⟨.idle, .exception (.raised x), rfl, rfl, rfl, nofun, rfl, .inl rfl, rfl⟩
  | cancelled => exact .inr ⟨.dead, .exception .requestCancelled, rfl, rfl, rfl, nofun, rfl, .inl rfl, rfl⟩

theorem turn_starts {d' : ResidentFastDaemon} (starts : Starts cfg d w e d') : Turn d w e d' := by
  cases starts with
  | pinned => exact .keeps (x := .handling e) rfl rfl rfl rfl rfl rfl
  | own => exact .keeps (x := .handling e) rfl rfl rfl rfl rfl rfl
  | launched => exact .keeps (x := .waiting e d.tasks.length false) rfl rfl rfl rfl rfl rfl
  | joined _ _ t => exact .keeps (x := .waiting e t false) rfl rfl rfl rfl rfl rfl
  | resumed => exact turn_resume d w e _ _

theorem ends_handles {o : HandlerOutcome} {d' : ResidentFastDaemon} (handles : Handles cfg d w o d')
    (busy : d.workers[w]? = some (.handling e)) : ∃ x state, Ends d w e x state d' := by
  have same {e' : Entry} (other : d.workers[w]? = some (.handling e')) : e' = e := by
    rw [busy] at other
    exact (Worker.handling.inj (Option.some.inj other)).symm
  cases handles with
  | completed e' other =>
    obtain rfl := same other
    exact ⟨_, _, ends_complete d w e' _⟩
  | unwritable e' other =>
    obtain rfl := same other
    exact ⟨_, _, ends_fail d w e' _⟩
  | invalid e' other =>
    obtain rfl := same other
    exact ⟨_, _, ends_fail d w e' _⟩
  | raised e' other =>
    obtain rfl := same other
    exact ⟨_, _, ends_fail d w e' _⟩
  | cancelled e' other =>
    obtain rfl := same other
    exact ⟨_, _, ends_die d w e'⟩
  | nothing _ idle => exact absurd busy (idle e)

theorem handled_eq_or_ends (cfg : Config) (d : ResidentFastDaemon) (w : ℕ) (o : HandlerOutcome) (latency : ℕ) :
    d.handled cfg w o latency = d ∨
      ∃ e x state, d.workers[w]? = some (.handling e) ∧ Ends d w e x state (d.handled cfg w o latency) := by
  by_cases busy : ∃ e, d.workers[w]? = some (.handling e)
  · obtain ⟨e, busy⟩ := busy
    obtain ⟨x, state, ends⟩ := ends_handles (handles_handled cfg d w o latency) busy
    exact .inr ⟨e, x, state, busy, ends⟩
  · left
    unfold handled
    split
    · rename_i e there
      exact absurd ⟨e, there⟩ busy
    · rfl

theorem resume_put (d : ResidentFastDaemon) (w : ℕ) (e : Entry) (t : ℕ) (o : OpenOutcome) (y : Worker) :
    resume { d with workers := d.workers.set w y } w e t o = d.resume w e t o := by
  have same (x : Worker) : (d.workers.set w y).set w x = d.workers.set w x := List.set_set _
  cases o with
  | pin =>
    show ({ d with pins := _, opening := _, workers := (d.workers.set w y).set w _ } : ResidentFastDaemon) = _
    rw [same]
    rfl
  | failed x =>
    show ({ d with
      opening := _, futures := _, active := _, unfinished := _, workers := (d.workers.set w y).set w .idle } :
        ResidentFastDaemon) = _
    rw [same]
    rfl
  | cancelled =>
    show ({ d with
      opening := _, futures := _, active := _, unfinished := _, cancelled := _,
      workers := (d.workers.set w y).set w .dead } : ResidentFastDaemon) = _
    rw [same]
    rfl

theorem getD_set_future {l : List FutureState} {f g : ℕ} {x : FutureState} :
    (l.set f x).getD g .pending = if g = f ∧ f < l.length then x else l.getD g .pending := by
  rw [List.getD_eq_getElem?_getD, List.getD_eq_getElem?_getD, List.getElem?_set]
  by_cases same : f = g
  · subst same
    by_cases inside : f < l.length
    · rw [if_pos rfl, if_pos inside, if_pos ⟨rfl, inside⟩]
      rfl
    · rw [if_pos rfl, if_neg inside, if_neg fun h => inside h.2, List.getElem?_eq_none (by omega)]
  · rw [if_neg same, if_neg fun h => same h.1.symm]

theorem future_resolve_of_ne {g : ℕ} (state : FutureState) (other : g ≠ f) : (d.resolve f state).future g = d.future g := by
  unfold future resolve
  dsimp only
  split_ifs
  · rfl
  · rw [getD_set_future, if_neg fun h => other h.1]

theorem future_resolve_self (state : FutureState) (inside : f < d.futures.length) :
    (d.resolve f state).future f = if d.isDone f then d.future f else state := by
  unfold future resolve
  dsimp only
  split_ifs
  · rfl
  · rw [getD_set_future, if_pos ⟨rfl, inside⟩]

theorem length_futures_resolve (d : ResidentFastDaemon) (f : ℕ) (state : FutureState) :
    (d.resolve f state).futures.length = d.futures.length := by
  unfold resolve
  dsimp only
  split_ifs
  · rfl
  · rw [List.length_set]

theorem future_enqueue (request : DaemonRequest) (f : ℕ) : (d.enqueue request).future f = d.future f := by
  show (d.futures ++ [FutureState.pending]).getD f .pending = d.futures.getD f .pending
  rw [List.getD_eq_getElem?_getD, List.getD_eq_getElem?_getD]
  by_cases old : f < d.futures.length
  · rw [List.getElem?_append_left old]
  · rw [List.getElem?_append_right (by omega), List.getElem?_eq_none (by omega : d.futures.length ≤ f)]
    cases f - d.futures.length <;> rfl

theorem isDone_enqueue (request : DaemonRequest) (f : ℕ) : (d.enqueue request).isDone f = d.isDone f := by
  unfold isDone
  rw [future_enqueue]

end ResidentFastDaemon

end SimplicioFast
