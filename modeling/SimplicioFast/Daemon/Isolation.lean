import SimplicioFast.Daemon.Steps

/-!
# What a cancelled request does to the others

`cancel` and a passed deadline cancel the worker of a request.  A worker that waits for an opening passes the
cancellation on to the opening task, which other requests may wait for, and a worker that sees `CancelledError` ends.
In a run in which the requests that wait for one opening are cancelled together or not at all, no request joins an
opening that was cancelled so, and the last worker does not end, every other request ends with what its own opening
and its own handler have come to, or is still queued or with a worker (`isolated_of_apart`).
-/

namespace SimplicioFast

open Daemon Machine

namespace ResidentFastDaemon

variable (cfg : Config) (d : ResidentFastDaemon)

/-! ## What happens to a request by itself -/

def asksCancel (t : ℕ) : Bool :=
  match d.tasks[t]? with
  | some task => task.cancelRequested
  | none => false

/-- What the end of the handler of a request makes of its future. -/
def ownEnd (e : Entry) (o : HandlerOutcome) (latencyNs : ℕ) : FutureState :=
  match o with
  | .returned fields =>
    if (Json.obj fields).isFinite then .result (response cfg d.epoch e.request fields latencyNs)
    else .exception (.reason "protocol_result_invalid")
  | .invalid => .exception (.reason "protocol_result_invalid")
  | .raised x => .exception (.raised x)
  | .cancelled => .exception .requestCancelled

/-- What an opening that nobody has asked to cancel makes of the future of a request that waits for it. -/
def ownFailure (e : Entry) (t : ℕ) : List (ℕ × FutureState) :=
  if d.asksCancel t then []
  else match d.outcome? t with
    | some (.failed x) => [(e.future, .exception (.raised x))]
    | some .cancelled => [(e.future, .exception .requestCancelled)]
    | _ => []

/-- What becomes of a request in a step by its own handler or its own opening. -/
def produces : Event → List (ℕ × FutureState)
  | .handled w o latencyNs =>
    match d.workers[w]? with
    | some (.handling e) => [(e.future, d.ownEnd cfg e o latencyNs)]
    | _ => []
  | .wake w =>
    match d.workers[w]? with
    | some (.waiting e t false) => d.ownFailure e t
    | _ => []
  | .take w =>
    match d.passes? cfg w with
    | some r => d.ownFailure r.entry r.task
    | none => []
  | _ => []

/-! ## Cancellations -/

/-- The ids whose request is cancelled by a client or by a deadline. -/
def asks : Event → List PyStr
  | .cancel requestId => [requestId]
  | .expire f => (d.submitter? f).toList.map fun e => e.request.requestId
  | _ => []

/-- The openings that the cancellation of a request is passed on to. -/
def strikes (requestId : PyStr) : List ℕ :=
  match d.active.get? requestId with
  | some w =>
    match d.workers[w]? with
    | some (.waiting _ t _) => [t]
    | _ => []
  | none => []

/-- The requests that the workers are busy with. -/
def busyWith : List ℕ := (d.workers.filterMap Worker.entry?).map Entry.future

/-- The opening that the request in front of the queue finds when an idle worker takes it. -/
def finds? (w : ℕ) : Option (Entry × ℕ) :=
  match d.workers[w]?, d.queue with
  | some .idle, e :: _ =>
    if d.isCancelled e.future ∨ (d.pins.get? e.request.generation).isSome then none
    else (d.opening.get? e.request.generation).map fun t => (e, t)
  | _, _ => none

end ResidentFastDaemon

namespace Daemon

/-- A daemon, and what has happened to its requests. -/
structure Traced where
  daemon : ResidentFastDaemon := {}
  /-- The requests that were accepted. -/
  accepted : List Entry := []
  /-- The ids whose request was cancelled by a client or by a deadline. -/
  asked : List PyStr := []
  /-- The openings that the cancellation of a request was passed on to. -/
  struck : List ℕ := []
  /-- The futures of the requests that a shutdown or a crash has cancelled. -/
  halted : List ℕ := []
  /-- What became of requests by their own handlers and openings. -/
  produced : List (ℕ × FutureState) := []

namespace Traced

open ResidentFastDaemon

variable (cfg : Config)

/-- The requests that a shutdown or a crash cancels: those of the workers that it cancels, and those that join an
opening that it has cancelled. -/
def halts (s : Traced) : Event → List ℕ
  | .shutdown drain => if s.daemon.mode = .stopped ∨ drain = true then [] else s.daemon.busyWith
  | .drained i =>
    match s.daemon.shutdowns[i]? with
    | some .draining => if s.daemon.unfinished = 0 then s.daemon.busyWith else []
    | _ => []
  | .crash => s.daemon.busyWith
  | .take w =>
    match s.daemon.finds? w with
    | some (e, t) => if s.daemon.asksCancel t = true ∧ t ∉ s.struck then [e.future] else []
    | none => []
  | _ => []

/-- A step of the daemon, and what it adds to the log. -/
def step (s : Traced) (event : Event) : Traced where
  daemon := s.daemon.step cfg event
  accepted :=
    match event with
    | .submit now value =>
      match (s.daemon.submit cfg now value).2 with
      | .queued e => s.accepted ++ [e]
      | _ => s.accepted
    | _ => s.accepted
  asked := s.asked ++ s.daemon.asks event
  struck :=
    match event with
    | .cancel requestId => s.struck ++ s.daemon.strikes requestId
    | .expire f => s.struck ++ (s.daemon.submitter? f).toList.flatMap fun e => s.daemon.strikes e.request.requestId
    | _ => s.struck
  halted := s.halted ++ s.halts event
  produced := s.produced ++ s.daemon.produces cfg event

/-- The cancellation of a request does nothing to the others. -/
structure Isolated (s : Traced) : Prop where
  /-- A request that nobody has cancelled is pending, or its future holds what its own handler or its own opening has
  come to. -/
  own : ∀ e ∈ s.accepted, e.request.requestId ∉ s.asked → e.future ∉ s.halted →
    s.daemon.isDone e.future = false ∨ (e.future, s.daemon.future e.future) ∈ s.produced
  /-- A pending request is in the queue or with a worker. -/
  kept : ∀ e ∈ s.accepted, s.daemon.isDone e.future = false → e ∈ s.daemon.queue ∨ ∃ w, s.daemon.holding w = some e
  /-- A ready daemon has a worker. -/
  served : s.daemon.mode = .ready → ∃ x ∈ s.daemon.workers, x.isAlive = true

/-- The requests that wait for the opening of a request with the given id have that id, or were cancelled too. -/
def Alone (s : Traced) (requestId : PyStr) : Prop :=
  ∀ (w : ℕ) (e : Entry) (t : ℕ) (must : Bool), s.daemon.active.get? requestId = some w →
    s.daemon.workers[w]? = some (.waiting e t must) → s.daemon.outcome? t = none →
      ∀ (v : ℕ) (e' : Entry) (must' : Bool), s.daemon.workers[v]? = some (.waiting e' t must') →
        e'.request.requestId = requestId ∨ e'.request.requestId ∈ s.asked

def Others (s : Traced) (w : ℕ) : Prop := ∃ (v : ℕ) (x : Worker), v ≠ w ∧ s.daemon.workers[v]? = some x ∧ x.isAlive = true

/-- A request is not cancelled while its opening has other waiters, no request joins an opening that was cancelled so,
and while the daemon is ready the last worker does not end. -/
def Apart (s : Traced) : Event → Prop
  | .cancel requestId => s.Alone requestId
  | .expire f => ∀ e, s.daemon.submitter? f = some e → s.Alone e.request.requestId
  | .take w => (∀ e t, s.daemon.finds? w = some (e, t) → e.request.requestId ∈ s.asked ∨ t ∉ s.struck) ∧
    (s.daemon.mode = .ready → ∀ r, s.daemon.passes? cfg w = some r → r.outcome = .cancelled → s.Others w)
  | .wake w => s.daemon.mode = .ready → ∀ r, s.daemon.wakes? w = some r → r.outcome = .cancelled → s.Others w
  | .handled w .cancelled _ => s.daemon.mode = .ready → (∃ e, s.daemon.workers[w]? = some (.handling e)) → s.Others w
  | .drained i => s.daemon.mode = .ready → s.daemon.shutdowns[i]? = some .draining → s.daemon.unfinished = 0 →
    ∃ (v : ℕ) (x : Worker), s.daemon.workers[v]? = some x ∧ x.isAlive = true ∧ (v ∉ s.daemon.crew ∨ x ≠ .idle)
  | _ => True

/-! ## The invariant -/

/-- The invariant of a run whose cancellations keep apart. -/
structure Kept (s : Traced) : Prop where
  numbers : s.accepted.map Entry.future = List.range s.daemon.futures.length
  queue : ∀ e ∈ s.daemon.queue, e ∈ s.accepted
  held : ∀ w e, s.daemon.holding w = some e → e ∈ s.accepted
  submitters : ∀ e ∈ s.daemon.submitters, e ∈ s.accepted
  tasks : ∀ g t, s.daemon.opening.get? g = some t → t < s.daemon.tasks.length
  waiting : ∀ (w : ℕ) (e : Entry) (t : ℕ) (must : Bool), s.daemon.workers[w]? = some (.waiting e t must) →
    t < s.daemon.tasks.length ∧ (must = true ∨ s.daemon.asksCancel t = true →
      e.request.requestId ∈ s.asked ∨ e.future ∈ s.halted)
  isolated : Isolated s

namespace Kept

variable {cfg : Config} {s : Traced} {d' : ResidentFastDaemon} {w t f : ℕ} {e : Entry} {x y : Worker}

theorem eq_of_future (h : Kept s) {a b : Entry} (mem : a ∈ s.accepted) (mem' : b ∈ s.accepted)
    (same : a.future = b.future) : a = b := by
  have nodup : (s.accepted.map Entry.future).Nodup := by
    rw [h.numbers]
    exact List.nodup_range
  exact List.inj_on_of_nodup_map nodup mem mem' same

theorem lt_of_mem (h : Kept s) (mem : e ∈ s.accepted) : e.future < s.daemon.futures.length := by
  rw [← List.mem_range, ← h.numbers]
  exact List.mem_map.2 ⟨e, mem, rfl⟩

theorem grow (h : Kept s) {asked : List PyStr} {struck halted : List ℕ} {produced : List (ℕ × FutureState)}
    (more : s.asked ⊆ asked) (more' : s.halted ⊆ halted) (more'' : s.produced ⊆ produced) :
    Kept { s with asked := asked, struck := struck, halted := halted, produced := produced } := by
  refine ⟨h.numbers, h.queue, h.held, h.submitters, h.tasks, fun w e t must there => ?_,
    ⟨fun e mem quiet free => ?_, h.isolated.kept, h.isolated.served⟩⟩
  · obtain ⟨inside, spared⟩ := h.waiting w e t must there
    exact ⟨inside, fun hit => (spared hit).imp (fun mem => more mem) fun mem => more' mem⟩
  · refine (h.isolated.own e mem (fun named => quiet (more named)) fun named => free (more' named)).imp_right ?_
    exact fun mem => more'' mem

theorem congr (h : Kept s) (epoch accepted completed cancelled unfinished : ℕ) (crew : List ℕ)
    (active : Dict PyStr ℕ) (terminal : Dict PyStr Json) (pins : Dict ℕ Pin) (shutdowns : List Phase)
    (crashes : List (List ℕ)) (closed : List Pin) :
    Kept { s with daemon := { s.daemon with
      epoch := epoch, accepted := accepted, completed := completed, cancelled := cancelled, unfinished := unfinished
      crew := crew, active := active, terminal := terminal, pins := pins, shutdowns := shutdowns, crashes := crashes
      closed := closed } } :=
  ⟨h.numbers, h.queue, h.held, h.submitters, h.tasks, h.waiting, h.isolated.own, h.isolated.kept, h.isolated.served⟩

theorem remode (h : Kept s) (mode : Mode) (served : mode = .ready → s.daemon.mode = .ready) :
    Kept { s with daemon := { s.daemon with mode := mode } } :=
  ⟨h.numbers, h.queue, h.held, h.submitters, h.tasks, h.waiting, h.isolated.own, h.isolated.kept,
    fun ready => h.isolated.served (served ready)⟩

theorem erase (h : Kept s) (g : ℕ) : Kept { s with daemon := { s.daemon with opening := s.daemon.opening.erase g } } := by
  refine ⟨h.numbers, h.queue, h.held, h.submitters, fun g' t found => ?_, h.waiting,
    ⟨h.isolated.own, h.isolated.kept, h.isolated.served⟩⟩
  have found : (s.daemon.opening.erase g).get? g' = some t := found
  rw [Dict.get?_erase] at found
  split_ifs at found
  exact h.tasks g' t found

theorem dismiss (h : Kept s) (f : ℕ) : Kept { s with daemon := s.daemon.dismiss f } :=
  ⟨h.numbers, h.queue, h.held, fun e mem => h.submitters e (List.mem_filter.1 mem).1, h.tasks, h.waiting,
    ⟨h.isolated.own, h.isolated.kept, h.isolated.served⟩⟩

theorem resolve {state : FutureState} (h : Kept s) (f : ℕ)
    (own : ∀ e ∈ s.accepted, e.future = f →
      e.request.requestId ∈ s.asked ∨ e.future ∈ s.halted ∨ (f, state) ∈ s.produced) :
    Kept { s with daemon := s.daemon.resolve f state } := by
  have length := length_futures_resolve s.daemon f state
  have keeps (g : ℕ) (was : s.daemon.isDone g = true) : (s.daemon.resolve f state).future g = s.daemon.future g := by
    by_cases same : g = f
    · subst same
      have kept : (s.daemon.resolve g state).futures = s.daemon.futures := if_pos was
      unfold future
      rw [kept]
    · exact future_resolve_of_ne state same
  refine ⟨?_, h.queue, h.held, h.submitters, h.tasks, h.waiting, ⟨fun e mem quiet free => ?_, fun e mem pending => ?_,
    h.isolated.served⟩⟩
  · show _ = List.range (s.daemon.resolve f state).futures.length
    rw [length]
    exact h.numbers
  · show (s.daemon.resolve f state).isDone _ = false ∨ (_, (s.daemon.resolve f state).future _) ∈ _
    cases was : s.daemon.isDone e.future with
    | true =>
      rw [keeps _ was]
      have := h.isolated.own e mem quiet free
      rw [was] at this
      exact .inr (this.resolve_left nofun)
    | false =>
      by_cases same : e.future = f
      · rw [same, future_resolve_self state (same ▸ h.lt_of_mem mem), if_neg]
        · rcases own e mem same with asked | halted | produced
          · exact absurd asked quiet
          · exact absurd halted free
          · exact .inr produced
        · rw [← same, was]
          exact Bool.false_ne_true
      · left
        unfold isDone
        rw [future_resolve_of_ne state same]
        exact was
  · refine h.isolated.kept e mem ?_
    have pending : (s.daemon.resolve f state).isDone e.future = false := pending
    cases was : s.daemon.isDone e.future with
    | false => rfl
    | true =>
      unfold isDone at pending was
      rw [keeps _ (by unfold isDone; exact was)] at pending
      exact was.symm.trans pending

theorem isDone_resolve {state : FutureState} (h : Kept s) (mem : e ∈ s.accepted) (done : state ≠ .pending) :
    (s.daemon.resolve e.future state).isDone e.future = true := by
  unfold isDone
  rw [future_resolve_self state (h.lt_of_mem mem)]
  split_ifs with was
  · exact was
  · cases state with
    | pending => exact absurd rfl done
    | _ => rfl

theorem put (h : Kept s) (there : s.daemon.workers[w]? = some x)
    (lose : ∀ e, x.entry? = some e → y.entry? = some e ∨ s.daemon.isDone e.future = true)
    (gain : ∀ e, y.entry? = some e → e ∈ s.accepted)
    (waits : ∀ e t must, y = .waiting e t must → t < s.daemon.tasks.length ∧
      (must = true ∨ s.daemon.asksCancel t = true → e.request.requestId ∈ s.asked ∨ e.future ∈ s.halted))
    (lives : s.daemon.mode = .ready → y.isAlive = true ∨ s.Others w) :
    Kept { s with daemon := { s.daemon with workers := s.daemon.workers.set w y } } := by
  have slot := lt_of_worker there
  refine ⟨h.numbers, h.queue, fun v e mine => ?_, h.submitters, h.tasks, fun v e t must mine => ?_,
    ⟨h.isolated.own, fun e mem pending => ?_, fun ready => ?_⟩⟩
  · have mine : holding { s.daemon with workers := s.daemon.workers.set w y } v = some e := mine
    rw [holding_set slot] at mine
    split_ifs at mine
    · exact gain e mine
    · exact h.held v e mine
  · have mine : (s.daemon.workers.set w y)[v]? = some (.waiting e t must) := mine
    rw [getElem?_set_worker slot] at mine
    split_ifs at mine
    · exact waits e t must (Option.some.inj mine)
    · exact h.waiting v e t must mine
  · rcases h.isolated.kept e mem pending with queued | ⟨v, held⟩
    · exact .inl queued
    · refine .inr ⟨v, ?_⟩
      show holding { s.daemon with workers := s.daemon.workers.set w y } v = _
      rw [holding_set slot]
      split_ifs with same
      · subst same
        rw [holding_of_worker there] at held
        refine (lose e held).resolve_right fun done => ?_
        exact Bool.false_ne_true (pending.symm.trans done)
      · exact held
  · rcases lives ready with alive | ⟨v, z, other, there', alive⟩
    · exact ⟨y, List.mem_iff_getElem?.2 ⟨w, by rw [getElem?_set_worker slot, if_pos rfl]⟩, alive⟩
    · exact ⟨z, List.mem_iff_getElem?.2 ⟨v, by rw [getElem?_set_worker slot, if_neg other]; exact there'⟩, alive⟩

theorem pop {rest : List Entry} (h : Kept s) (front : s.daemon.queue = e :: rest)
    (safe : s.daemon.isDone e.future = true ∨ ∃ w, s.daemon.holding w = some e) :
    Kept { s with daemon := { s.daemon with queue := rest } } := by
  refine ⟨h.numbers, fun q mem => h.queue q (front ▸ List.mem_cons_of_mem e mem), h.held, h.submitters, h.tasks,
    h.waiting, ⟨h.isolated.own, fun q mem pending => ?_, h.isolated.served⟩⟩
  rcases h.isolated.kept q mem pending with queued | held
  · rw [front] at queued
    rcases List.mem_cons.1 queued with rfl | later
    · rcases safe with done | held
      · exact absurd (pending.symm.trans done) Bool.false_ne_true
      · exact .inr held
    · exact .inl later
  · exact .inr held

theorem retask {ts : List OpenTask} (h : Kept s) (length : s.daemon.tasks.length ≤ ts.length)
    (same : ∀ t, t < s.daemon.tasks.length → asksCancel { s.daemon with tasks := ts } t = s.daemon.asksCancel t) :
    Kept { s with daemon := { s.daemon with tasks := ts } } := by
  refine ⟨h.numbers, h.queue, h.held, h.submitters, fun g t found => (h.tasks g t found).trans_le length,
    fun w e t must there => ?_, ⟨h.isolated.own, h.isolated.kept, h.isolated.served⟩⟩
  obtain ⟨inside, spared⟩ := h.waiting w e t must there
  refine ⟨inside.trans_le length, fun hit => spared ?_⟩
  have hit : must = true ∨ asksCancel { s.daemon with tasks := ts } t = true := hit
  rwa [same t inside] at hit

/-! ### Moves of the workers -/

theorem release (h : Kept s) (state : FutureState) (there : s.daemon.workers[w]? = some x) (own : x.entry? = some e)
    (done : state ≠ .pending)
    (why : e.request.requestId ∈ s.asked ∨ e.future ∈ s.halted ∨ (e.future, state) ∈ s.produced)
    (free : y.entry? = none) (lives : s.daemon.mode = .ready → y.isAlive = true ∨ s.Others w) :
    Kept { s with daemon := (s.daemon.resolve e.future state).release w e y } := by
  have mem : e ∈ s.accepted := h.held w e ((holding_of_worker there).trans own)
  have resolved : Kept { s with daemon := s.daemon.resolve e.future state } := by
    refine h.resolve e.future fun q mem' same => ?_
    rw [h.eq_of_future mem' mem same]
    exact why
  have put := resolved.put (y := y) there (fun q mine => ?_) (fun q mine => ?_) (fun q t must same => ?_) lives
  · exact put.congr _ _ _ _ _ _ _ _ _ _ _ _
  · rw [own] at mine
    obtain rfl := Option.some.inj mine
    exact .inr (h.isDone_resolve mem done)
  · rw [free] at mine
    cases mine
  · rw [same] at free
    cases free

/-- What the move of a worker behind an opening needs: a request that does not get a pin has failed by itself, or was
cancelled. -/
def Excused (s : Traced) (e : Entry) : OpenOutcome → Prop
  | .pin => True
  | .failed x => e.request.requestId ∈ s.asked ∨ e.future ∈ s.halted ∨
    (e.future, FutureState.exception (.raised x)) ∈ s.produced
  | .cancelled => e.request.requestId ∈ s.asked ∨ e.future ∈ s.halted ∨
    (e.future, FutureState.exception .requestCancelled) ∈ s.produced

theorem resume {o : OpenOutcome} (h : Kept s) (there : s.daemon.workers[w]? = some x) (own : x.entry? = some e)
    (excused : Excused s e o) (lives : s.daemon.mode = .ready → o = .cancelled → s.Others w) :
    Kept { s with daemon := s.daemon.resume w e t o } := by
  have erased := h.erase e.request.generation
  cases o with
  | pin =>
    have put := erased.put (y := .handling e) there (fun q mine => .inl (own.symm.trans mine)) (fun q mine => ?_) nofun
      fun _ => .inl rfl
    · exact put.congr _ _ _ _ _ _ _ _ _ _ _ _
    · obtain rfl : e = q := Option.some.inj mine
      exact h.held w e ((holding_of_worker there).trans own)
  | failed x' =>
    have released := erased.release (y := .idle) (.exception (.raised x')) there own nofun excused rfl
      fun _ => .inl rfl
    exact released
  | cancelled =>
    have released := erased.release (y := .dead) (.exception .requestCancelled) there own nofun excused rfl
      fun ready => .inr (lives ready rfl)
    exact released.congr _ _ _ _ _ _ _ _ _ _ _ _

theorem enter (h : Kept s) (g : ℕ) (inside : t < s.daemon.tasks.length) :
    Kept { s with daemon := { s.daemon with opening := s.daemon.opening.set g t } } := by
  refine ⟨h.numbers, h.queue, h.held, h.submitters, fun g' t' found => ?_, h.waiting,
    ⟨h.isolated.own, h.isolated.kept, h.isolated.served⟩⟩
  have found : (s.daemon.opening.set g t).get? g' = some t' := found
  rw [Dict.get?_set] at found
  split_ifs at found
  · rw [← Option.some.inj found]
    exact inside
  · exact h.tasks g' t' found

theorem finds?_eq {rest : List Entry} (idle : s.daemon.workers[w]? = some .idle) (front : s.daemon.queue = e :: rest)
    (live : s.daemon.isCancelled e.future = false) (absent : s.daemon.pins.get? e.request.generation = none)
    (running : s.daemon.opening.get? e.request.generation = some t) : s.daemon.finds? w = some (e, t) := by
  unfold finds?
  rw [idle, front]
  dsimp only
  rw [if_neg, running]
  · rfl
  · rw [live, absent]
    simp

theorem take (h : Kept s) (excused : ∀ r, s.daemon.passes? cfg w = some r → Excused s r.entry r.outcome)
    (lives : s.daemon.mode = .ready → ∀ r, s.daemon.passes? cfg w = some r → r.outcome = .cancelled → s.Others w)
    (joins : ∀ e t, s.daemon.finds? w = some (e, t) → s.daemon.asksCancel t = true →
      e.request.requestId ∈ s.asked ∨ e.future ∈ s.halted) :
    Kept { s with daemon := s.daemon.take cfg w } := by
  have takes := takes_take cfg s.daemon w
  generalize s.daemon.take cfg w = d' at takes ⊢
  cases takes with
  | nothing => exact h
  | skipped idle e rest front cancelled =>
    have done : s.daemon.isDone e.future = true := by
      unfold isCancelled at cancelled
      unfold isDone
      split at cancelled
      · rename_i state
        rw [state]
      · cases cancelled
    exact (h.pop front (.inl done)).congr _ _ _ _ _ _ _ _ _ _ _ _
  | started idle e rest front live d' starts =>
    -- The worker holds the request before its turn goes on.
    have there : (s.daemon.workers.set w (.handling e))[w]? = some (.handling e) := by
      rw [getElem?_set_worker (lt_of_worker idle), if_pos rfl]
    have mem : e ∈ s.accepted := h.queue e (front ▸ List.mem_cons_self)
    have put := h.put (y := .handling e) idle nofun
      (fun q mine => by rw [← Worker.handling.inj (congrArg Worker.handling (Option.some.inj mine))]; exact mem) nofun
      fun _ => .inl rfl
    have held : holding { s.daemon with workers := s.daemon.workers.set w (.handling e) } w = some e :=
      holding_of_worker (d := { s.daemon with workers := s.daemon.workers.set w (.handling e) }) there
    have taken : Kept { s with daemon := { s.daemon.begin w e rest with
        workers := s.daemon.workers.set w (.handling e) } } :=
      (put.pop front (.inr ⟨w, held⟩)).congr _ _ _ _ _ _ _ _ _ _ _ _
    have again (x : Worker) : (s.daemon.workers.set w (.handling e)).set w x = s.daemon.workers.set w x :=
      List.set_set _
    cases starts with
    | pinned => exact taken
    | own => exact taken.congr _ _ _ _ _ _ _ _ _ _ _ _
    | launched opens absent closed =>
      have new : asksCancel { s.daemon with
          tasks := s.daemon.tasks ++ [{ generation := e.request.generation }] } s.daemon.tasks.length = false := by
        unfold asksCancel
        dsimp only
        rw [List.getElem?_append_right le_rfl, Nat.sub_self]
        rfl
      have old (t : ℕ) (inside : t < s.daemon.tasks.length) : asksCancel { s.daemon with
          tasks := s.daemon.tasks ++ [{ generation := e.request.generation }] } t = s.daemon.asksCancel t := by
        unfold asksCancel
        dsimp only
        rw [List.getElem?_append_left inside]
      have length : s.daemon.tasks.length <
          (s.daemon.tasks ++ [({ generation := e.request.generation } : OpenTask)]).length := by
        rw [List.length_append]
        exact Nat.lt_succ_self _
      have grown := taken.retask length.le old
      have entered := grown.enter e.request.generation length
      have waits := entered.put (y := .waiting e s.daemon.tasks.length false) there (fun q mine => .inl mine)
        (fun q mine => by rw [← Option.some.inj mine]; exact mem) (fun e' t must same => by
          obtain ⟨rfl, rfl, rfl⟩ := Worker.waiting.inj same
          refine ⟨length, fun hit => ?_⟩
          rcases hit with hit | hit
          · cases hit
          · exact absurd (new.symm.trans hit) Bool.false_ne_true) fun _ => .inl rfl
      dsimp only at waits
      rw [again] at waits
      exact waits
    | joined opens absent t running =>
      have waits := taken.put (y := .waiting e t false) there (fun q mine => .inl mine)
        (fun q mine => by rw [← Option.some.inj mine]; exact mem) (fun e' t' must same => by
          obtain ⟨rfl, rfl, rfl⟩ := Worker.waiting.inj same
          refine ⟨h.tasks _ t running, fun hit => ?_⟩
          rcases hit with hit | hit
          · cases hit
          · exact joins e t (finds?_eq idle front live absent running) hit) fun _ => .inl rfl
      dsimp only at waits
      rw [again] at waits
      exact waits
    | resumed opens absent t running o ended =>
      have passes : s.daemon.passes? cfg w = some ⟨w, e, t, o⟩ :=
        passes?_eq idle front live opens absent running ended
      rw [← resume_put _ w e t o (.handling e)]
      exact taken.resume there rfl (excused _ passes) fun ready cancelled => by
        obtain ⟨v, z, other, mine, alive⟩ := lives ready _ passes cancelled
        refine ⟨v, z, other, ?_, alive⟩
        show (s.daemon.workers.set w (.handling e))[v]? = _
        rw [getElem?_set_worker (lt_of_worker idle), if_neg other]
        exact mine

theorem wake (h : Kept s) (excused : ∀ r, s.daemon.wakes? w = some r → Excused s r.entry r.outcome)
    (lives : s.daemon.mode = .ready → ∀ r, s.daemon.wakes? w = some r → r.outcome = .cancelled → s.Others w) :
    Kept { s with daemon := s.daemon.wake w } := by
  have wakes := wakes_wake s.daemon w
  generalize s.daemon.wake w = d' at wakes ⊢
  cases wakes with
  | nothing => exact h
  | resumed e t must waits o ended seen =>
    exact h.resume waits rfl (excused _ seen) fun ready cancelled => lives ready _ seen cancelled

theorem handled (h : Kept s) (o : HandlerOutcome) (latency : ℕ)
    (produced : ∀ e, s.daemon.workers[w]? = some (.handling e) →
      (e.future, s.daemon.ownEnd cfg e o latency) ∈ s.produced)
    (lives : o = .cancelled → s.daemon.mode = .ready → (∃ e, s.daemon.workers[w]? = some (.handling e)) → s.Others w) :
    Kept { s with daemon := s.daemon.handled cfg w o latency } := by
  unfold ResidentFastDaemon.handled
  split
  · rename_i e busy
    have why := produced e busy
    cases o with
    | returned fields =>
      dsimp only
      unfold ownEnd at why
      dsimp only at why
      split_ifs with finite
      · rw [if_pos finite] at why
        have done := h.release (y := .idle) (.result (response cfg s.daemon.epoch e.request fields latency)) busy rfl
          nofun (.inr (.inr why)) rfl fun _ => .inl rfl
        exact done.congr _ _ _ _ _ _ _ _ _ _ _ _
      · rw [if_neg finite] at why
        exact h.release (y := .idle) _ busy rfl nofun (.inr (.inr why)) rfl fun _ => .inl rfl
    | invalid => exact h.release (y := .idle) _ busy rfl nofun (.inr (.inr why)) rfl fun _ => .inl rfl
    | raised x => exact h.release (y := .idle) _ busy rfl nofun (.inr (.inr why)) rfl fun _ => .inl rfl
    | cancelled =>
      have done := h.release (y := .dead) (.exception .requestCancelled) busy rfl nofun (.inr (.inr why)) rfl
        fun ready => .inr (lives rfl ready ⟨e, busy⟩)
      exact done.congr _ _ _ _ _ _ _ _ _ _ _ _
  · exact h

/-! ### Cancellations -/

theorem cancelWorker (h : Kept s) (held : s.daemon.holding w = some e) (asked : e.request.requestId ∈ s.asked)
    (alone : ∀ (e : Entry) (t : ℕ) (must : Bool), s.daemon.workers[w]? = some (.waiting e t must) →
      s.daemon.outcome? t = none → ∀ (v : ℕ) (e' : Entry) (must' : Bool),
        s.daemon.workers[v]? = some (.waiting e' t must') → e'.request.requestId ∈ s.asked) :
    Kept { s with daemon := s.daemon.cancelWorker w } := by
  unfold ResidentFastDaemon.cancelWorker
  split
  · rename_i idle
    rw [holding_of_worker idle] at held
    cases held
  · rename_i e' t must waits
    rw [holding_of_worker waits] at held
    obtain rfl : e' = e := Option.some.inj held
    split
    · rename_i open_
      have asks (t' : ℕ) (other : t' ≠ t) : asksCancel { s.daemon with
          tasks := s.daemon.tasks.modify t fun task => { task with cancelRequested := true } } t' =
            s.daemon.asksCancel t' := by
        unfold asksCancel
        dsimp only
        rw [List.getElem?_modify_ne _ _ (Ne.symm other)]
      refine ⟨h.numbers, h.queue, h.held, h.submitters, fun g t' found => ?_, fun v q t' must' there => ?_,
        ⟨h.isolated.own, h.isolated.kept, h.isolated.served⟩⟩
      · show t' < (s.daemon.tasks.modify _ _).length
        rw [List.length_modify]
        exact h.tasks g t' found
      · obtain ⟨inside, spared⟩ := h.waiting v q t' must' there
        refine ⟨by rw [List.length_modify]; exact inside, fun hit => ?_⟩
        by_cases same : t' = t
        · subst same
          exact .inl (alone e' t' must waits open_ v q must' there)
        · rw [asks t' same] at hit
          exact spared hit
    · refine h.put waits (fun q mine => .inl mine) (fun q mine => ?_) (fun q t' must' same => ?_) fun _ => .inl rfl
      · rw [← Option.some.inj mine]
        exact h.held w e' (holding_of_worker waits)
      · obtain ⟨rfl, rfl, rfl⟩ := Worker.waiting.inj same
        exact ⟨(h.waiting w e' t must waits).1, fun _ => .inl asked⟩
  · exact h

theorem cancels {id : PyStr} (h : Kept s) (listed : Listed s.daemon) (cancels : Cancels s.daemon id d')
    (asked : id ∈ s.asked) (alone : s.Alone id) : Kept { s with daemon := d' } := by
  cases cancels with
  | worker w busy =>
    obtain ⟨e, held, named⟩ := listed id w busy
    refine h.cancelWorker held (named.symm ▸ asked) fun q t must waits open_ v e' must' there => ?_
    rcases alone w q t must busy waits open_ v e' must' there with same | mem
    · rw [same]
      exact asked
    · exact mem
  | queued e found inactive =>
    have mem := h.queue e (List.mem_of_find?_eq_some found)
    have named := List.find?_some found
    rw [Bool.and_eq_true, decide_eq_true_eq] at named
    refine h.resolve e.future fun q mem' same => .inl ?_
    rw [h.eq_of_future mem' mem same, named.1]
    exact asked
  | nothing => exact h

theorem halt (h : Kept s) (halted : ∀ w e, s.daemon.holding w = some e → e.future ∈ s.halted)
    (lives : s.daemon.mode = .ready → s.daemon.workers[w]? = some .idle → s.Others w) :
    Kept { s with daemon := s.daemon.cancelWorker w } := by
  unfold ResidentFastDaemon.cancelWorker
  split
  · rename_i idle
    exact h.put idle nofun nofun nofun fun ready => .inr (lives ready idle)
  · rename_i e t must waits
    have excused : e.future ∈ s.halted := halted w e (holding_of_worker waits)
    split
    · refine ⟨h.numbers, h.queue, h.held, h.submitters, fun g t' found => ?_, fun v q t' must' there => ?_,
        ⟨h.isolated.own, h.isolated.kept, h.isolated.served⟩⟩
      · show t' < (s.daemon.tasks.modify _ _).length
        rw [List.length_modify]
        exact h.tasks g t' found
      · have inside := (h.waiting v q t' must' there).1
        exact ⟨by rw [List.length_modify]; exact inside, fun _ => .inr (halted v q (holding_of_worker there))⟩
    · refine h.put waits (fun q mine => .inl mine) (fun q mine => ?_) (fun q t' must' same => ?_) fun _ => .inl rfl
      · rw [← Option.some.inj mine]
        exact h.held w e (holding_of_worker waits)
      · obtain ⟨rfl, rfl, rfl⟩ := Worker.waiting.inj same
        exact ⟨(h.waiting w e t must waits).1, fun _ => .inr excused⟩
  · exact h

theorem alive_cancelWorker {v : ℕ} (there : s.daemon.workers[v]? = some x) (alive : x.isAlive = true)
    (apart : v ≠ w ∨ x ≠ .idle) :
    ∃ y, (s.daemon.cancelWorker w).workers[v]? = some y ∧ y.isAlive = true ∧ (x ≠ .idle → y ≠ .idle) := by
  unfold ResidentFastDaemon.cancelWorker
  split
  · rename_i idle
    have other : v ≠ w := by
      rintro rfl
      refine apart.elim (fun other => other rfl) fun busy => busy ?_
      exact Option.some.inj (there.symm.trans idle)
    exact ⟨x, by rw [getElem?_set_worker (lt_of_worker idle), if_neg other]; exact there, alive, id⟩
  · rename_i e t must waits
    split
    · exact ⟨x, there, alive, id⟩
    · by_cases same : v = w
      · exact ⟨.waiting e t true, by rw [getElem?_set_worker (lt_of_worker waits), if_pos same], rfl, nofun⟩
      · exact ⟨x, by rw [getElem?_set_worker (lt_of_worker waits), if_neg same]; exact there, alive, id⟩
  · exact ⟨x, there, alive, id⟩

theorem haltAll (h : Kept s) (ws : List ℕ) (halted : ∀ w e, s.daemon.holding w = some e → e.future ∈ s.halted)
    (lives : s.daemon.mode = .ready → ∃ (v : ℕ) (x : Worker), s.daemon.workers[v]? = some x ∧ x.isAlive = true ∧
      (v ∉ ws ∨ x ≠ .idle)) : Kept { s with daemon := s.daemon.cancelWorkers ws } := by
  induction ws generalizing s with
  | nil => exact h
  | cons w ws ih =>
    have first : Kept { s with daemon := s.daemon.cancelWorker w } := by
      refine h.halt halted fun ready idle => ?_
      obtain ⟨v, x, there, alive, apart⟩ := lives ready
      refine ⟨v, x, ?_, there, alive⟩
      rintro rfl
      refine apart.elim (fun out => out List.mem_cons_self) fun busy => busy ?_
      exact Option.some.inj (there.symm.trans idle)
    refine ih first (fun v e held => halted v e ?_) fun ready => ?_
    · exact (holding_cancelWorker s.daemon w v).symm.trans held
    · have mode : (s.daemon.cancelWorker w).mode = s.daemon.mode := by
        obtain ⟨_, _, same⟩ := cancelWorker_eq s.daemon w
        rw [same]
      obtain ⟨v, x, there, alive, apart⟩ := lives (mode.symm.trans ready)
      have apart' : v ≠ w ∨ x ≠ .idle := apart.imp_left fun out same => out (same ▸ List.mem_cons_self)
      obtain ⟨y, there', alive', busy⟩ := alive_cancelWorker there alive apart'
      exact ⟨v, y, there', alive', apart.imp (fun out mem => out (List.mem_cons_of_mem w mem)) busy⟩

/-! ### Steps -/

def logged (cfg : Config) (s : Traced) (event : Event) : Traced :=
  { s.step cfg event with daemon := s.daemon, accepted := s.accepted }

theorem logged_kept (cfg : Config) (h : Kept s) (event : Event) : Kept (logged cfg s event) :=
  h.grow (List.subset_append_left _ _) (List.subset_append_left _ _) (List.subset_append_left _ _)

theorem mem_busyWith {d : ResidentFastDaemon} (held : d.holding w = some e) : e.future ∈ d.busyWith := by
  obtain ⟨x, there, own⟩ := Option.bind_eq_some_iff.1 held
  exact List.mem_map.2 ⟨e, List.mem_filterMap.2 ⟨x, List.mem_of_getElem? there, own⟩, rfl⟩

theorem excused_of_ownFailure {o : OpenOutcome} (ended : s.daemon.outcome? t = some o)
    (spared : s.daemon.asksCancel t = true → e.request.requestId ∈ s.asked ∨ e.future ∈ s.halted)
    (produced : s.daemon.ownFailure e t ⊆ s.produced) : Excused s e o := by
  cases asks : s.daemon.asksCancel t with
  | true =>
    cases o with
    | pin => trivial
    | failed x => exact (spared asks).imp_right .inl
    | cancelled => exact (spared asks).imp_right .inl
  | false =>
    unfold ownFailure at produced
    rw [asks, ended] at produced
    cases o with
    | pin => trivial
    | failed x => exact .inr (.inr (produced (List.mem_singleton_self _)))
    | cancelled => exact .inr (.inr (produced (List.mem_singleton_self _)))

theorem step_take (h : Kept s) (apart : s.Apart cfg (.take w)) : Kept (s.step cfg (.take w)) := by
  have more := logged_kept cfg h (.take w)
  have joins (e : Entry) (t : ℕ) (found : s.daemon.finds? w = some (e, t)) (asks : s.daemon.asksCancel t = true) :
      e.request.requestId ∈ (logged cfg s (.take w)).asked ∨ e.future ∈ (logged cfg s (.take w)).halted := by
    rcases apart.1 e t found with asked | free
    · exact .inl (List.mem_append.2 (.inl asked))
    · refine .inr (List.mem_append.2 (.inr ?_))
      unfold halts
      dsimp only
      rw [found]
      dsimp only
      rw [if_pos ⟨asks, free⟩]
      exact List.mem_singleton_self _
  refine more.take (fun r passes => ?_) apart.2 joins
  have passes : s.daemon.passes? cfg w = some r := passes
  have produced : s.daemon.ownFailure r.entry r.task ⊆ (logged cfg s (.take w)).produced := by
    intro row mem
    refine List.mem_append.2 (.inr ?_)
    unfold produces
    dsimp only
    rw [passes]
    exact mem
  unfold passes? at passes
  split at passes
  · rename_i e rest idle front
    split_ifs at passes with other
    obtain ⟨t, running, passes⟩ := Option.bind_eq_some_iff.1 passes
    obtain ⟨o, ended, rfl⟩ := Option.map_eq_some_iff.1 passes
    rw [not_or, not_or] at other
    obtain ⟨live, absent, -⟩ := other
    have found : s.daemon.finds? w = some (e, t) :=
      finds?_eq idle front (Bool.eq_false_of_not_eq_true live) (by simpa using absent) running
    exact excused_of_ownFailure ended (joins e t found) produced
  · cases passes

theorem step_wake (h : Kept s) (apart : s.Apart cfg (.wake w)) : Kept (s.step cfg (.wake w)) := by
  have more := logged_kept cfg h (.wake w)
  refine more.wake (fun r wakes => ?_) apart
  unfold wakes? at wakes
  split at wakes
  · rename_i e t must waits
    obtain ⟨o, ended, rfl⟩ := Option.map_eq_some_iff.1 wakes
    have spared := (more.waiting w e t must waits).2
    cases must with
    | true => exact (spared (.inl rfl)).imp_right .inl
    | false =>
      refine excused_of_ownFailure ended (fun asks => spared (.inr asks)) fun row mem => ?_
      refine List.mem_append.2 (.inr ?_)
      unfold produces
      dsimp only
      rw [show s.daemon.workers[w]? = some (.waiting e t false) from waits]
      exact mem
  · cases wakes

theorem step_handled (h : Kept s) (o : HandlerOutcome) (latency : ℕ) (apart : s.Apart cfg (.handled w o latency)) :
    Kept (s.step cfg (.handled w o latency)) := by
  have more := logged_kept cfg h (.handled w o latency)
  refine more.handled o latency (fun e busy => List.mem_append.2 (.inr ?_)) fun cancelled => ?_
  · unfold produces
    dsimp only
    rw [show s.daemon.workers[w]? = some (.handling e) from busy]
    exact List.mem_singleton_self _
  · subst cancelled
    exact apart

theorem enqueue (h : Kept s) (request : DaemonRequest) : Kept { s with
    daemon := s.daemon.enqueue request, accepted := s.accepted ++ [⟨request, s.daemon.futures.length⟩] } := by
  have future (f : ℕ) : (s.daemon.enqueue request).future f = s.daemon.future f := future_enqueue request f
  have old {e : Entry} (mem : e ∈ s.accepted) : e ∈ s.accepted ++ [⟨request, s.daemon.futures.length⟩] :=
    List.mem_append.2 (.inl mem)
  have undone : (s.daemon.enqueue request).isDone s.daemon.futures.length = false := by
    unfold isDone
    rw [future]
    unfold ResidentFastDaemon.future
    rw [List.getD_eq_getElem?_getD, List.getElem?_eq_none le_rfl]
    rfl
  refine ⟨?_, fun e mem => ?_, fun w e held => old (h.held w e held), fun e mem => ?_, h.tasks, h.waiting,
    ⟨fun e mem quiet free => ?_, fun e mem pending => ?_, h.isolated.served⟩⟩
  · show (s.accepted ++ [_]).map _ = List.range (s.daemon.futures ++ [_]).length
    rw [List.map_append, h.numbers, List.length_append, List.length_singleton, List.range_succ]
    rfl
  · rcases List.mem_append.1 mem with waits | new
    · exact old (h.queue e waits)
    · exact List.mem_append.2 (.inr new)
  · rcases List.mem_append.1 mem with waits | new
    · exact old (h.submitters e waits)
    · exact List.mem_append.2 (.inr new)
  · rcases List.mem_append.1 mem with was | new
    · have := h.isolated.own e was quiet free
      show (s.daemon.enqueue request).isDone _ = false ∨ (_, (s.daemon.enqueue request).future _) ∈ _
      unfold isDone at this ⊢
      rw [future]
      exact this
    · rw [List.mem_singleton.1 new]
      exact .inl undone
  · rcases List.mem_append.1 mem with was | new
    · have pending : s.daemon.isDone e.future = false := by
        have pending : (s.daemon.enqueue request).isDone e.future = false := pending
        unfold isDone at pending ⊢
        rwa [future] at pending
      rcases h.isolated.kept e was pending with waits | held
      · exact .inl (List.mem_append.2 (.inl waits))
      · exact .inr held
    · exact .inl (List.mem_append.2 (.inr new))

theorem step_submit (h : Kept s) (now : ℕ) (value : Json) : Kept (s.step cfg (.submit now value)) := by
  have more := logged_kept cfg h (.submit now value)
  have replies : ((s.daemon.submit cfg now value).1 = s.daemon ∧
      ∀ e, (s.daemon.submit cfg now value).2 ≠ .queued e) ∨
      ∃ request, s.daemon.submit cfg now value =
        (s.daemon.enqueue request, .queued ⟨request, s.daemon.futures.length⟩) := by
    unfold ResidentFastDaemon.submit
    by_cases ready : s.daemon.mode ≠ .ready
    · rw [if_pos ready]
      exact .inl ⟨rfl, fun e h => by cases h⟩
    · rw [if_neg ready]
      split
      · exact .inl ⟨rfl, fun e h => by cases h⟩
      · split
        · exact .inl ⟨rfl, fun e h => by cases h⟩
        · exact .inl ⟨rfl, fun e h => by cases h⟩
        · split_ifs
          · exact .inl ⟨rfl, fun e h => by cases h⟩
          · exact .inl ⟨rfl, fun e h => by cases h⟩
          · exact .inl ⟨rfl, fun e h => by cases h⟩
          · exact .inr ⟨_, rfl⟩
  unfold Traced.step
  dsimp only
  show Kept { (logged cfg s (.submit now value)) with daemon := (s.daemon.submit cfg now value).1, accepted := _ }
  rcases replies with ⟨same, no⟩ | ⟨request, same⟩
  · rw [same]
    split
    · rename_i e reply
      exact absurd reply (no e)
    · exact more
  · rw [same]
    exact more.enqueue request

theorem step_start (h : Kept s) : Kept { s with daemon := s.daemon.start cfg } := by
  have frame := frame_start cfg s.daemon
  unfold ResidentFastDaemon.start at frame ⊢
  by_cases off : s.daemon.mode = .stopped ∨ s.daemon.mode = .crashed
  · rw [if_pos off] at frame ⊢
    have fresh (v : ℕ) (x : Worker)
        (there : (s.daemon.workers ++ List.replicate cfg.maxInflight Worker.idle)[v]? = some x) :
        s.daemon.workers[v]? = some x ∨ x = .idle := by
      rw [List.getElem?_append] at there
      split_ifs at there
      · exact .inl there
      · exact .inr (List.eq_of_mem_replicate (List.mem_of_getElem? there))
    refine ⟨h.numbers, h.queue, fun v e held => h.held v e ((frame.holding v).symm.trans held), h.submitters, h.tasks,
      fun v e t must there => ?_, ⟨h.isolated.own, fun e mem pending => ?_, fun _ => ?_⟩⟩
    · rcases fresh v _ there with old | new
      · exact h.waiting v e t must old
      · cases new
    · refine (h.isolated.kept e mem pending).imp_right ?_
      rintro ⟨v, held⟩
      exact ⟨v, (frame.holding v).trans held⟩
    · refine ⟨.idle, List.mem_append.2 (.inr (List.mem_replicate.2 ⟨?_, rfl⟩)), rfl⟩
      exact cfg.maxInflight_pos.ne'
  · rw [if_neg off]
    exact h

theorem step_expire (h : Kept s) (listed : Listed s.daemon) (apart : s.Apart cfg (.expire f)) :
    Kept (s.step cfg (.expire f)) := by
  have more := logged_kept cfg h (.expire f)
  show Kept { (logged cfg s (.expire f)) with daemon := s.daemon.expire f }
  have expires := expires_expire s.daemon f
  generalize s.daemon.expire f = d' at expires
  cases expires with
  | nothing => exact more
  | expired e waits _ cancels =>
    have asked : e.request.requestId ∈ (logged cfg s (.expire f)).asked := by
      refine List.mem_append.2 (.inr ?_)
      unfold asks
      dsimp only
      rw [waits]
      exact List.mem_singleton_self _
    have mine := h.submitters e (List.mem_of_find?_eq_some waits)
    have number : e.future = f := by simpa using List.find?_some waits
    have resolved : Kept { (logged cfg s (.expire f)) with daemon := (s.daemon.dismiss f).resolve f .cancelled } := by
      refine (more.dismiss f).resolve f fun q mem same => .inl ?_
      rw [h.eq_of_future mem mine (same.trans number.symm)]
      exact asked
    refine resolved.cancels listed cancels asked fun w q t must busy there open_ v e' must' there' => ?_
    refine (apart e waits w q t must busy there open_ v e' must' there').imp_right fun mem => ?_
    exact List.mem_append.2 (.inl mem)

theorem step_cancel {id : PyStr} (h : Kept s) (listed : Listed s.daemon) (apart : s.Apart cfg (.cancel id)) :
    Kept (s.step cfg (.cancel id)) := by
  have more := logged_kept cfg h (.cancel id)
  refine more.cancels listed (cancels_cancel s.daemon id) (List.mem_append.2 (.inr (List.mem_singleton_self id))) ?_
  intro w q t must busy there open_ v e' must' there'
  exact (apart w q t must busy there open_ v e' must' there').imp_right fun mem => List.mem_append.2 (.inl mem)

theorem step_opened (h : Kept s) (t : ℕ) (o : OpenOutcome) : Kept { s with daemon := s.daemon.opened t o } := by
  unfold ResidentFastDaemon.opened
  split
  · refine h.retask (List.length_modify _ _ _).ge fun t' _ => ?_
    unfold asksCancel
    dsimp only
    rw [List.getElem?_modify]
    cases s.daemon.tasks[t']? with
    | none => rfl
    | some task =>
      show (if t = t' then _ else task).cancelRequested = _
      split_ifs <;> rfl
  · exact h

theorem step_shutdown (h : Kept s) (drain : Bool) : Kept (s.step cfg (.shutdown drain)) := by
  have more := logged_kept cfg h (.shutdown drain)
  have draining := more.remode .draining nofun
  show Kept { (logged cfg s (.shutdown drain)) with daemon := s.daemon.shutdown drain }
  unfold ResidentFastDaemon.shutdown
  by_cases off : s.daemon.mode = .stopped
  · rw [if_pos off]
    exact more
  · rw [if_neg off]
    cases drain with
    | true => exact draining.congr _ _ _ _ _ _ _ _ _ _ _ _
    | false =>
      have halted (w : ℕ) (e : Entry) (held : s.daemon.holding w = some e) :
          e.future ∈ (logged cfg s (.shutdown false)).halted := by
        refine List.mem_append.2 (.inr ?_)
        unfold halts
        dsimp only
        rw [if_neg]
        · exact mem_busyWith held
        · rintro (stopped | other)
          · exact off stopped
          · cases other
      have all := draining.haltAll s.daemon.crew halted nofun
      exact all.congr _ _ _ _ _ _ _ _ _ _ _ _

theorem step_drained (h : Kept s) (i : ℕ) (apart : s.Apart cfg (.drained i)) : Kept (s.step cfg (.drained i)) := by
  have more := logged_kept cfg h (.drained i)
  show Kept { (logged cfg s (.drained i)) with daemon := s.daemon.drained i }
  unfold ResidentFastDaemon.drained
  split
  · rename_i call
    by_cases done : s.daemon.unfinished = 0
    · rw [if_pos done]
      have halted (w : ℕ) (e : Entry) (held : s.daemon.holding w = some e) :
          e.future ∈ (logged cfg s (.drained i)).halted := by
        refine List.mem_append.2 (.inr ?_)
        unfold halts
        dsimp only
        rw [call]
        dsimp only
        rw [if_pos done]
        exact mem_busyWith held
      have all := more.haltAll s.daemon.crew halted fun ready => apart ready call done
      exact all.congr _ _ _ _ _ _ _ _ _ _ _ _
    · rw [if_neg done]
      exact more
  · exact more

theorem step_crash (h : Kept s) : Kept (s.step cfg .crash) := by
  have more := logged_kept cfg h .crash
  have crashed := more.remode .crashed nofun
  have all := crashed.haltAll s.daemon.crew (fun w e held => List.mem_append.2 (.inr (mem_busyWith held))) nofun
  exact all.congr _ _ _ _ _ _ _ _ _ _ _ _

theorem step (h : Kept s) (listed : Listed s.daemon) (event : Event) (apart : s.Apart cfg event) :
    Kept (s.step cfg event) := by
  have more := logged_kept cfg h event
  cases event with
  | start => exact more.step_start
  | submit now value => exact h.step_submit now value
  | cancel id => exact h.step_cancel listed apart
  | expire f => exact h.step_expire listed apart
  | leave f => exact more.dismiss f
  | take w => exact h.step_take apart
  | wake w => exact h.step_wake apart
  | opened t o => exact more.step_opened t o
  | handled w o latency => exact h.step_handled o latency apart
  | shutdown drain => exact h.step_shutdown drain
  | drained i => exact h.step_drained i apart
  | gathered i =>
    show Kept { (logged cfg s (.gathered i)) with daemon := s.daemon.gathered cfg i }
    unfold ResidentFastDaemon.gathered
    split
    · split
      · exact more.congr _ _ _ _ _ _ _ _ _ _ _ _
      · exact more
    · exact more
  | close i returns =>
    show Kept { (logged cfg s (.close i returns)) with daemon := s.daemon.close i returns }
    unfold ResidentFastDaemon.close
    split
    · exact more.congr _ _ _ _ _ _ _ _ _ _ _ _
    · exact more
  | finish i =>
    show Kept { (logged cfg s (.finish i)) with daemon := s.daemon.finish i }
    unfold ResidentFastDaemon.finish
    split
    · exact (more.remode .stopped nofun).congr _ _ _ _ _ _ _ _ _ _ _ _
    · exact more
  | crash => exact h.step_crash
  | crashed i =>
    show Kept { (logged cfg s (.crashed i)) with daemon := s.daemon.crashed i }
    unfold ResidentFastDaemon.crashed
    split
    · split_ifs
      · exact more.congr _ _ _ _ _ _ _ _ _ _ _ _
      · exact more
    · exact more

end Kept

/-- In a run whose cancellations keep apart, a request that nobody has cancelled is pending, in the queue or with a
worker, or ends with what its own handler or its own opening has come to. -/
theorem isolated_of_apart (cfg : Config) (events : List Event)
    (apart : Along (step cfg) (Apart cfg) {} events) : Always (step cfg) Isolated {} events := by
  have listed : Listed ({} : Traced).daemon := fun _ _ found => by cases found
  have kept : Kept {} := by
    refine ⟨rfl, nofun, fun w e held => ?_, nofun, fun g t found => ?_, fun w e t must there => ?_,
      ⟨nofun, nofun, nofun⟩⟩
    · cases held
    · cases found
    · cases there
  rintro before after rfl
  have tracked : Listed (run (step cfg) {} before).daemon ∧ Kept (run (step cfg) {} before) := by
    refine (along_append.1 apart).1.run_invariant (I := fun s => Listed s.daemon ∧ Kept s) ⟨listed, kept⟩ ?_
    rintro s event ⟨listed, kept⟩ ok
    exact ⟨listed_step listed event, kept.step listed event ok⟩
  exact tracked.2.isolated

/-! ## Two requests of one opening -/

/-- A request is cancelled while its handler runs, and another one is served by the other worker. -/
def apartRun : List Event :=
  [.start, .submit 0 (requestJson "a"), .take 0, .opened 0 .pin, .wake 0, .submit 0 (requestJson "b"), .take 1,
    .cancel "a", .handled 0 .cancelled 0, .handled 1 (.returned []) 0]

theorem isolated_apartRun : Along (step (crewOf 1)) (Apart (crewOf 1)) {} apartRun ∧
    Always (step (crewOf 1)) Isolated {} apartRun := by
  have apart : Along (step (crewOf 1)) (Apart (crewOf 1)) {} apartRun := by
    refine ⟨trivial, trivial, ⟨nofun, fun _ r none => by cases none⟩, trivial, fun _ r wakes cancelled => ?_, trivial,
      ⟨nofun, fun _ r none => by cases none⟩, ?_, fun _ _ => ?_, trivial, trivial⟩
    · obtain rfl := Option.some.inj wakes
      cases cancelled
    · intro w e t must busy waits
      obtain rfl := Option.some.inj busy
      cases waits
    · exact ⟨1, _, by decide, rfl, rfl⟩
  exact ⟨apart, isolated_of_apart (crewOf 1) apartRun apart⟩

/-- Two requests wait for one opening, and one of them is cancelled. -/
def sharedRun : List Event :=
  [.start, .submit 0 (requestJson "a"), .submit 0 (requestJson "b"), .take 0, .take 1, .cancel "a", .opened 0 .cancelled,
    .wake 1]

/-- The other request is cancelled too. -/
theorem not_isolated_sharedRun : ¬ Always (step (crewOf 1)) Isolated {} sharedRun := by
  intro always
  have own := (always sharedRun [] (List.append_nil _).symm).own ⟨⟨"b", "s", "query", 1, 1000, []⟩, 1⟩ (.tail _ (.head _))
    (by decide +kernel) (by decide +kernel)
  rcases own with pending | produced
  · revert pending
    decide +kernel
  · cases produced

end Traced

end Daemon

end SimplicioFast
