import Mathlib.Data.Multiset.OrderedMonoid
import Mathlib.Tactic.Abel
import SimplicioFast.Daemon.Steps

/-!
# The identity of a request

A request moves from the queue to a worker, and its response to the table of responses.  `submit` looks at the last
two places only, and `cancel` of a queued request leaves it in the queue.  So the handler is called at most once for
each outstanding id, and never for a request that was cancelled in the queue, in every run that submits no id while it
is queued, cancels no request while it is queued, and forgets no running request behind a crash (`once_of_careful`).
-/

namespace SimplicioFast

open Daemon Machine

namespace Daemon.Worker

/-- The request of a worker that has not called the handler yet. -/
def waiting? : Worker → Option Entry
  | .waiting e _ _ => some e
  | _ => none

/-- The request that the handler runs for. -/
def called : Worker → List Entry
  | .handling e => [e]
  | _ => []

end Daemon.Worker

namespace ResidentFastDaemon

variable {cfg : Config} {d d' : ResidentFastDaemon} {w : ℕ} {e : Entry} {x y : Worker}

/-! ## Where the requests are -/

/-- The requests that `g` finds at the workers. -/
def pooled (g : Worker → Option Entry) (workers : List Worker) : Multiset Entry := workers.filterMap g

theorem mem_pooled {g : Worker → Option Entry} {workers : List Worker} :
    e ∈ pooled g workers ↔ ∃ (w : ℕ) (x : Worker), workers[w]? = some x ∧ g x = some e := by
  rw [pooled, Multiset.mem_coe, List.mem_filterMap]
  constructor
  · rintro ⟨x, mem, own⟩
    obtain ⟨w, there⟩ := List.mem_iff_getElem?.1 mem
    exact ⟨w, x, there, own⟩
  · rintro ⟨w, x, there, own⟩
    exact ⟨x, List.mem_of_getElem? there, own⟩

theorem mem_pooled_entry : e ∈ pooled Worker.entry? d.workers ↔ ∃ w, d.holding w = some e := by
  rw [mem_pooled]
  constructor
  · rintro ⟨w, x, there, own⟩
    exact ⟨w, (holding_of_worker there).trans own⟩
  · rintro ⟨w, held⟩
    obtain ⟨x, there, own⟩ := Option.bind_eq_some_iff.1 held
    exact ⟨w, x, there, own⟩

theorem pooled_set (g : Worker → Option Entry) {workers : List Worker} (there : workers[w]? = some x) :
    pooled g (workers.set w y) + ↑(g x).toList = pooled g workers + ↑(g y).toList := by
  have cons (z : Worker) (l : List Worker) : pooled g (z :: l) = ↑(g z).toList + pooled g l := by
    show (↑((z :: l).filterMap g) : Multiset Entry) = _
    rw [List.filterMap_cons]
    cases g z <;> rfl
  induction workers generalizing w with
  | nil => simp at there
  | cons z l ih =>
    cases w with
    | zero =>
      obtain rfl : z = x := by simpa using there
      rw [List.set_cons_zero, cons, cons]
      abel
    | succ w =>
      rw [List.set_cons_succ, cons, cons, add_assoc, ih (by simpa using there), add_assoc]

theorem pooled_congr {g : Worker → Option Entry} {l m : List Worker} (same : ∀ v : ℕ, (m[v]?).bind g = (l[v]?).bind g) :
    pooled g m = pooled g l := by
  have : m.filterMap g = l.filterMap g := by
    induction l generalizing m with
    | nil =>
      rw [List.filterMap_nil, List.filterMap_eq_nil_iff]
      intro x mem
      obtain ⟨v, there⟩ := List.mem_iff_getElem?.1 mem
      simpa [there] using same v
    | cons x l ih =>
      cases m with
      | nil =>
        rw [List.filterMap_nil, eq_comm, List.filterMap_eq_nil_iff]
        intro y mem
        obtain ⟨v, there⟩ := List.mem_iff_getElem?.1 mem
        simpa [there] using (same v).symm
      | cons y m =>
        have first : g y = g x := by simpa using same 0
        rw [List.filterMap_cons, List.filterMap_cons, first, ih fun v => by simpa using same (v + 1)]
  exact congrArg (fun l : List Entry => (↑l : Multiset Entry)) this

theorem waiting_iff {z : Option Worker} :
    z.bind Worker.waiting? = some e ↔ z.bind Worker.entry? = some e ∧ z ≠ some (.handling e) := by
  cases z with
  | none => simp
  | some x => cases x <;> simp [Worker.waiting?, Worker.entry?]

variable (d) in
/-- The accepted requests that are not over: those that wait in the queue, and those of a worker. -/
def outstanding : Multiset Entry :=
  ↑(d.queue.filter fun e => !d.isDone e.future) + pooled Worker.entry? d.workers

variable (d) in
/-- The requests that the handler may still be called for. -/
def uncalled : Multiset Entry := ↑d.queue + pooled Worker.waiting? d.workers

theorem mem_outstanding : e ∈ d.outstanding ↔ (e ∈ d.queue ∧ d.isDone e.future = false) ∨ ∃ w, d.holding w = some e := by
  rw [outstanding, Multiset.mem_add, Multiset.mem_coe, List.mem_filter, mem_pooled_entry]
  simp

theorem mem_uncalled : e ∈ d.uncalled ↔ e ∈ d.queue ∨ e ∈ pooled Worker.waiting? d.workers := by
  rw [uncalled, Multiset.mem_add, Multiset.mem_coe]

/-! ## The log of a run -/

/-- The request that a worker calls the handler for between two states. -/
def begins (d d' : ResidentFastDaemon) (w : ℕ) : List Entry :=
  match d.workers[w]? with
  | some (.handling _) => []
  | _ => (d'.workers[w]?).elim [] Worker.called

/-- The requests that the handler is called for between two states. -/
def calledBetween (d d' : ResidentFastDaemon) : List Entry := (List.range d'.workers.length).flatMap (begins d d')

/-- The futures that are done between two states while their requests wait in the queue. -/
def droppedBetween (d d' : ResidentFastDaemon) : List ℕ :=
  (d'.queue.filter fun e => !d.isDone e.future && d'.isDone e.future).map Entry.future

end ResidentFastDaemon

namespace Daemon

/-- A daemon, the requests that the handler was called for, and the futures of the requests that were cancelled in
the queue. -/
structure Watched where
  daemon : ResidentFastDaemon := {}
  calls : List Entry := []
  dropped : List ℕ := []

namespace Watched

open ResidentFastDaemon

/-- The daemon comes to a new state, and the log grows by what happens on the way. -/
def advance (s : Watched) (d : ResidentFastDaemon) : Watched where
  daemon := d
  calls := s.calls ++ calledBetween s.daemon d
  dropped := s.dropped ++ droppedBetween s.daemon d

def step (cfg : Config) (s : Watched) (event : Event) : Watched := s.advance (s.daemon.step cfg event)

/-- Every outstanding id has one request, which the handler is called for at most once. -/
structure Once (s : Watched) : Prop where
  /-- The handler is called at most once with a request that was accepted. -/
  calls : (s.calls.map Entry.future).Nodup
  /-- No two outstanding requests have the same id. -/
  apart : (s.daemon.outstanding.map fun e => e.request.requestId).Nodup
  /-- No outstanding request has the id of a response. -/
  fresh : ∀ e ∈ s.daemon.outstanding, s.daemon.terminal.get? e.request.requestId = none
  /-- The handler is not called for a request that was cancelled in the queue. -/
  dropped : ∀ f ∈ s.dropped, f ∉ s.calls.map Entry.future

end Watched

end Daemon

namespace ResidentFastDaemon

variable {cfg : Config} {d d' : ResidentFastDaemon} {w : ℕ} {e : Entry} {x y : Worker}

variable (d) in
/-- A request of the id waits in the queue. -/
def Queued (requestId : PyStr) : Prop := ∃ e ∈ d.queue, e.request.requestId = requestId ∧ d.isDone e.future = false

/-- The step accepts no request whose id is queued, cancels no request that is queued, and does not clear the table of
active requests while a worker is busy. -/
def Careful (cfg : Config) (d : ResidentFastDaemon) : Event → Prop
  | .submit now value => ∀ request, parse value = .ok request → d.mode = .ready →
    d.terminal.get? request.requestId = none → d.active.get? request.requestId = none → now < request.deadlineNs →
      d.queue.length < cfg.queueCapacity → ¬ d.Queued request.requestId
  | .cancel requestId => d.active.get? requestId = none → ¬ d.Queued requestId
  | .expire f => ∀ e, d.submitter? f = some e → d.active.get? e.request.requestId = none →
    ¬ ((d.dismiss f).resolve f .cancelled).Queued e.request.requestId
  | .crashed i => ∀ ws, d.crashes[i]? = some ws → d.allDead ws = true → ∀ x ∈ d.workers, x.entry? = none
  | _ => True

theorem frame_of_cancels {id : PyStr} (cancels : Cancels d id d')
    (careful : d.active.get? id = none → ¬ d.Queued id) : Frame d d' := by
  cases cancels with
  | worker v => exact frame_cancelWorker d v
  | nothing => exact .refl d
  | queued e found inactive =>
    have there := List.mem_of_find?_eq_some found
    have named := List.find?_some found
    rw [Bool.and_eq_true, Bool.not_eq_true', decide_eq_true_eq] at named
    exact absurd ⟨e, there, named.1, named.2⟩ (careful inactive)

/-! ## What the log says -/

theorem flatMap_range_single {α : Type*} {f : ℕ → List α} (n w : ℕ) (other : ∀ v, v ≠ w → f v = []) :
    (List.range n).flatMap f = if w < n then f w else [] := by
  induction n with
  | zero => rfl
  | succ n ih =>
    rw [List.range_succ, List.flatMap_append, ih, List.flatMap_singleton]
    by_cases last : n = w
    · subst last
      rw [if_neg (lt_irrefl n), if_pos (Nat.lt_succ_self n), List.nil_append]
    · rw [other n last, List.append_nil]
      by_cases inside : w < n
      · rw [if_pos inside, if_pos (by omega)]
      · rw [if_neg inside, if_neg (by omega)]

theorem calledBetween_eq_nil (same : ∀ (v : ℕ) (e : Entry), d'.workers[v]? = some (.handling e) →
    d.workers[v]? = some (.handling e)) : calledBetween d d' = [] := by
  rw [calledBetween, List.flatMap_eq_nil_iff]
  intro v _
  unfold begins
  split
  · rfl
  · rename_i other
    cases there : d'.workers[v]? with
    | none => rfl
    | some x =>
      cases x with
      | handling e => exact absurd (same v e there) (other e)
      | _ => rfl

theorem calledBetween_set (there : d.workers[w]? = some x) (workers : d'.workers = d.workers.set w y) :
    calledBetween d d' = if x.called = [] then y.called else [] := by
  have inside := lt_of_worker there
  rw [calledBetween, flatMap_range_single _ w, workers, List.length_set, if_pos inside]
  · unfold begins
    rw [there, workers, getElem?_set_worker inside, if_pos rfl]
    cases x <;> rfl
  · intro v other
    unfold begins
    rw [workers, getElem?_set_worker inside, if_neg other]
    split
    · rfl
    · rename_i free
      cases old : d.workers[v]? with
      | none => rfl
      | some z =>
        cases z with
        | handling e => exact absurd old (free e)
        | _ => rfl

theorem droppedBetween_eq_nil (same : ∀ e ∈ d'.queue, d'.isDone e.future = d.isDone e.future) :
    droppedBetween d d' = [] := by
  rw [droppedBetween, List.map_eq_nil_iff, List.filter_eq_nil_iff]
  intro e mem
  rw [same e mem]
  cases d.isDone e.future <;> decide

/-! ## Futures -/

theorem isDone_congr (same : d'.futures = d.futures) (f : ℕ) : d'.isDone f = d.isDone f := by
  unfold isDone future
  rw [same]

theorem isCancelled_congr (same : d'.futures = d.futures) (f : ℕ) : d'.isCancelled f = d.isCancelled f := by
  unfold isCancelled future
  rw [same]

theorem isDone_resolve_of_ne {f g : ℕ} (state : FutureState) (other : g ≠ f) :
    (d.resolve f state).isDone g = d.isDone g := by
  unfold isDone
  rw [future_resolve_of_ne state other]

theorem isDone_of_isCancelled {f : ℕ} (h : d.isCancelled f = true) : d.isDone f = true := by
  unfold isCancelled at h
  unfold isDone
  split at h
  · rename_i state
    rw [state]
  · cases h

theorem isCancelled_resolve {f g : ℕ} (state : FutureState) (h : d.isCancelled g = true) :
    (d.resolve f state).isCancelled g = true := by
  by_cases same : g = f
  · subst same
    have kept : (d.resolve g state).futures = d.futures := if_pos (isDone_of_isCancelled h)
    rw [isCancelled_congr kept]
    exact h
  · unfold isCancelled
    rw [future_resolve_of_ne state same]
    exact h

/-! ## The end of a turn -/

namespace Ends

variable {state : FutureState}

theorem isDone (ends : Ends d w e x state d') {f : ℕ} (other : f ≠ e.future) : d'.isDone f = d.isDone f := by
  rw [isDone_congr ends.futures]
  exact isDone_resolve_of_ne state other

theorem isCancelled (ends : Ends d w e x state d') {f : ℕ} (was : d.isCancelled f = true) :
    d'.isCancelled f = true := by
  rw [isCancelled_congr ends.futures]
  exact isCancelled_resolve state was

theorem length_futures (ends : Ends d w e x state d') : d'.futures.length = d.futures.length := by
  rw [ends.futures]
  exact length_futures_resolve d _ _

theorem holding (ends : Ends d w e x state d') (slot : w < d.workers.length) {v : ℕ} {q : Entry}
    (mine : d'.holding v = some q) : v ≠ w ∧ d.holding v = some q := by
  have mine : ResidentFastDaemon.holding { d with workers := d.workers.set w x } v = some q := by
    rw [← mine, ResidentFastDaemon.holding, ResidentFastDaemon.holding, ends.workers]
  rw [holding_set slot] at mine
  split_ifs at mine with same
  · rw [ends.free] at mine
    cases mine
  · exact ⟨same, mine⟩

theorem handling (ends : Ends d w e x state d') (slot : w < d.workers.length) {v : ℕ} {q : Entry}
    (busy : d'.workers[v]? = some (.handling q)) : d.workers[v]? = some (.handling q) := by
  rw [ends.workers, getElem?_set_worker slot] at busy
  split_ifs at busy with same
  · have := ends.free
    rw [Option.some.inj busy] at this
    cases this
  · exact busy

theorem waiters_le (ends : Ends d w e x state d') (there : d.workers[w]? = some y) :
    pooled Worker.waiting? d'.workers ≤ pooled Worker.waiting? d.workers := by
  have pool := pooled_set (y := x) Worker.waiting? there
  have free : x.waiting? = none := by
    have := ends.free
    cases x <;> first | rfl | cases this
  rw [free, ← ends.workers] at pool
  calc pooled Worker.waiting? d'.workers
      ≤ pooled Worker.waiting? d'.workers + ↑y.waiting?.toList := Multiset.le_add_right _ _
    _ = pooled Worker.waiting? d.workers := pool.trans (add_zero _)

theorem outstanding (ends : Ends d w e x state d') (there : d.workers[w]? = some y) (own : y.entry? = some e)
    (other : ∀ q ∈ d.queue, q.future ≠ e.future) : d'.outstanding + {e} = d.outstanding := by
  have pool := pooled_set (y := x) Worker.entry? there
  rw [own, ends.free, ← ends.workers] at pool
  have waits : (d'.queue.filter fun q => !d'.isDone q.future) = d.queue.filter fun q => !d.isDone q.future := by
    rw [ends.queue]
    exact List.filter_congr fun q mem => by rw [ends.isDone (other q mem)]
  rw [ResidentFastDaemon.outstanding, ResidentFastDaemon.outstanding, waits, add_assoc]
  exact congrArg _ (pool.trans (add_zero _))

end Ends

end ResidentFastDaemon

/-! ## The invariant -/

namespace Daemon.Watched

open ResidentFastDaemon

/-- The invariant of a careful run: a request is in one place, and the table of active requests lists those of the
workers. -/
structure Tracked (s : Watched) : Prop where
  inside : ∀ e ∈ s.daemon.uncalled, e.future < s.daemon.futures.length
  past : ∀ e ∈ s.calls, e.future < s.daemon.futures.length
  once : (s.daemon.uncalled.map Entry.future + ↑(s.calls.map Entry.future)).Nodup
  apart : (s.daemon.outstanding.map fun e => e.request.requestId).Nodup
  fresh : ∀ e ∈ s.daemon.outstanding, s.daemon.terminal.get? e.request.requestId = none
  covered : ∀ w e, s.daemon.holding w = some e → s.daemon.active.get? e.request.requestId = some w
  handled : ∀ (w : ℕ) (e : Entry), s.daemon.workers[w]? = some (.handling e) → e ∈ s.calls
  queued : ∀ e ∈ s.daemon.queue, s.daemon.isDone e.future = true → s.daemon.isCancelled e.future = true
  dropped : ∀ f ∈ s.dropped, s.daemon.isCancelled f = true ∧ f ∉ s.calls.map Entry.future ∧
    ∀ e ∈ pooled Worker.waiting? s.daemon.workers, e.future ≠ f

namespace Tracked

variable {cfg : Config} {d d' : ResidentFastDaemon} {calls : List Entry} {dropped : List ℕ} {w : ℕ} {e : Entry}
  {x : Worker}

theorem toOnce {s : Watched} (h : Tracked s) : Once s where
  calls := (Multiset.nodup_add.1 h.once).2.1
  apart := h.apart
  fresh := h.fresh
  dropped f mem := (h.dropped f mem).2.1

theorem queue_ne (h : Tracked ⟨d, calls, dropped⟩) (held : d.holding w = some e) :
    ∀ q ∈ d.queue, q.future ≠ e.future := by
  intro q mem same
  obtain ⟨x, there, own⟩ := Option.bind_eq_some_iff.1 held
  have once : (d.uncalled.map Entry.future + ↑(calls.map Entry.future)).Nodup := h.once
  obtain ⟨uncalled, -, apart⟩ := Multiset.nodup_add.1 once
  cases x with
  | waiting e' t must =>
    obtain rfl : e' = e := Option.some.inj own
    rw [ResidentFastDaemon.uncalled, Multiset.map_add] at uncalled
    have waits : e' ∈ pooled Worker.waiting? d.workers := mem_pooled.2 ⟨w, _, there, rfl⟩
    exact Multiset.disjoint_left.1 (Multiset.nodup_add.1 uncalled).2.2 (Multiset.mem_map.2 ⟨q, mem, same⟩)
      (Multiset.mem_map.2 ⟨e', waits, rfl⟩)
  | handling e' =>
    obtain rfl : e' = e := Option.some.inj own
    have called : e' ∈ calls := h.handled w e' there
    exact Multiset.disjoint_left.1 apart (Multiset.mem_map.2 ⟨q, mem_uncalled.2 (.inl mem), same⟩)
      (List.mem_map.2 ⟨e', called, rfl⟩)
  | _ => cases own

theorem frame (h : Tracked ⟨d, calls, dropped⟩) (frame : Frame d d') : Tracked ⟨d', calls, dropped⟩ := by
  have pool : pooled Worker.entry? d'.workers = pooled Worker.entry? d.workers := pooled_congr frame.holding
  have waiters : pooled Worker.waiting? d'.workers = pooled Worker.waiting? d.workers := by
    refine pooled_congr fun v => Option.ext fun e => ?_
    rw [waiting_iff, waiting_iff]
    refine and_congr ?_ (not_congr (frame.handling v e))
    exact Eq.congr_left (frame.holding v)
  have queue : d'.queue = d.queue := frame.queue
  have done (f : ℕ) : d'.isDone f = d.isDone f := isDone_congr frame.futures f
  have outstanding : d'.outstanding = d.outstanding := by
    rw [ResidentFastDaemon.outstanding, ResidentFastDaemon.outstanding, pool, queue]
    simp only [done]
  have uncalled : d'.uncalled = d.uncalled := by
    rw [ResidentFastDaemon.uncalled, ResidentFastDaemon.uncalled, waiters, queue]
  obtain ⟨inside, past, once, apart, fresh, covered, handled, queued, dropped_⟩ := h
  refine ⟨?_, ?_, ?_, ?_, ?_, ?_, ?_, ?_, ?_⟩
  · rw [uncalled, frame.futures]
    exact inside
  · rw [frame.futures]
    exact past
  · rw [uncalled]
    exact once
  · rw [outstanding]
    exact apart
  · rw [outstanding, frame.terminal]
    exact fresh
  · intro w e held
    rw [frame.active]
    exact covered w e ((frame.holding w).symm.trans held)
  · exact fun w e busy => handled w e ((frame.handling w e).1 busy)
  · intro e mem
    rw [queue] at mem
    rw [done, isCancelled_congr frame.futures]
    exact queued e mem
  · intro f mem
    rw [isCancelled_congr frame.futures, waiters]
    exact dropped_ f mem

theorem ends {state : FutureState} (h : Tracked ⟨d, calls, dropped⟩) (held : d.holding w = some e)
    (ends : Ends d w e x state d') : Tracked ⟨d', calls, dropped⟩ := by
  obtain ⟨old, there, own⟩ := Option.bind_eq_some_iff.1 held
  have slot := lt_of_worker there
  have queue : d'.queue = d.queue := ends.queue
  have other : ∀ q ∈ d.queue, q.future ≠ e.future := h.queue_ne held
  have outstanding := ends.outstanding there own other
  have waiters := ends.waiters_le there
  have uncalled : d'.uncalled ≤ d.uncalled := by
    rw [ResidentFastDaemon.uncalled, ResidentFastDaemon.uncalled, queue]
    exact add_le_add_right waiters _
  have apart : ((d'.outstanding + {e}).map fun e => e.request.requestId).Nodup := by
    rw [outstanding]
    exact h.apart
  rw [Multiset.map_add] at apart
  have newId (q : Entry) (mem : q ∈ d'.outstanding) : q.request.requestId ≠ e.request.requestId := fun same =>
    Multiset.disjoint_left.1 (Multiset.nodup_add.1 apart).2.2 (Multiset.mem_map.2 ⟨q, mem, same⟩)
      (Multiset.mem_map.2 ⟨e, Multiset.mem_singleton_self e, rfl⟩)
  refine ⟨?_, ?_, ?_, (Multiset.nodup_add.1 apart).1, ?_, ?_, ?_, ?_, ?_⟩
  · intro q mem
    exact lt_of_lt_of_eq (h.inside q (Multiset.mem_of_le uncalled mem)) ends.length_futures.symm
  · intro q mem
    exact lt_of_lt_of_eq (h.past q mem) ends.length_futures.symm
  · exact Multiset.nodup_of_le (add_le_add_left (Multiset.map_le_map uncalled) _) h.once
  · intro q mem
    have old : d.terminal.get? q.request.requestId = none := h.fresh q (by
      show q ∈ d.outstanding
      rw [← outstanding]
      exact Multiset.mem_add.2 (.inl mem))
    show d'.terminal.get? _ = none
    rcases ends.terminal with same | ⟨r, same⟩
    · rw [same]
      exact old
    · rw [same, Dict.get?_set_of_ne _ _ (newId q mem)]
      exact old
  · intro v q mine
    obtain ⟨apart', mine⟩ := ends.holding slot mine
    have row : d.active.get? q.request.requestId = some v := h.covered v q mine
    have turn : d.active.get? e.request.requestId = some w := h.covered w e held
    show d'.active.get? _ = _
    rw [ends.active, Dict.get?_erase, if_neg]
    · exact row
    · intro same
      rw [same, turn] at row
      exact apart' (Option.some.inj row).symm
  · exact fun v q busy => h.handled v q (ends.handling slot busy)
  · intro q mem fin
    have mem : q ∈ d.queue := queue ▸ mem
    exact ends.isCancelled (h.queued q mem ((ends.isDone (other q mem)).symm.trans fin))
  · intro f mem
    obtain ⟨was, quiet, apart_⟩ := h.dropped f mem
    exact ⟨ends.isCancelled was, quiet, fun q waits => apart_ q (Multiset.mem_of_le waiters waits)⟩

theorem keeps {t : ℕ} {must : Bool} (h : Tracked ⟨d, calls, dropped⟩) (waits : d.workers[w]? = some (.waiting e t must))
    (keeps : Keeps d w e x d') : Tracked ⟨d', calls ++ x.called, dropped⟩ := by
  have slot := lt_of_worker waits
  have done (f : ℕ) : d'.isDone f = d.isDone f := isDone_congr keeps.futures f
  have queue : d'.queue = d.queue := keeps.queue
  have holding (v : ℕ) : d'.holding v = d.holding v := by
    have moved : d'.holding v = ResidentFastDaemon.holding { d with workers := d.workers.set w x } v := by
      rw [ResidentFastDaemon.holding, ResidentFastDaemon.holding, keeps.workers]
    rw [moved, holding_set slot]
    split_ifs with same
    · rw [same, holding_of_worker waits]
      exact keeps.own
    · rfl
  have outstanding : d'.outstanding = d.outstanding := by
    rw [ResidentFastDaemon.outstanding, ResidentFastDaemon.outstanding, queue, pooled_congr holding]
    simp only [done]
  -- The request leaves those that the handler may be called for exactly when the handler is called for it.
  have uncalled : d'.uncalled + ↑x.called = d.uncalled := by
    have pool := pooled_set (y := x) Worker.waiting? waits
    rw [← keeps.workers] at pool
    have kept : (↑x.waiting?.toList : Multiset Entry) + ↑x.called = {e} := by
      have own := keeps.own
      cases x with
      | waiting e' t' must' => exact congrArg (fun q : Entry => ({q} : Multiset Entry)) (Option.some.inj own)
      | handling e' => exact congrArg (fun q : Entry => ({q} : Multiset Entry)) (Option.some.inj own)
      | _ => cases own
    have pool : pooled Worker.waiting? d'.workers + ↑x.called = pooled Worker.waiting? d.workers := by
      refine add_right_cancel (b := ({e} : Multiset Entry)) ?_
      calc pooled Worker.waiting? d'.workers + ↑x.called + {e}
          = pooled Worker.waiting? d'.workers + {e} + ↑x.called := by rw [add_right_comm]
        _ = pooled Worker.waiting? d.workers + ↑x.waiting?.toList + ↑x.called := congrArg (· + _) pool
        _ = pooled Worker.waiting? d.workers + {e} := by rw [add_assoc, kept]
    rw [ResidentFastDaemon.uncalled, ResidentFastDaemon.uncalled, queue, add_assoc, pool]
  have parts : e ∈ pooled Worker.waiting? d.workers := mem_pooled.2 ⟨w, _, waits, rfl⟩
  have calledMem (q : Entry) (mem : q ∈ x.called) : q ∈ d.uncalled ∧ q = e := by
    have own := keeps.own
    cases x with
    | handling e' =>
      obtain rfl : e' = e := Option.some.inj own
      obtain rfl := List.mem_singleton.1 mem
      exact ⟨mem_uncalled.2 (.inr parts), rfl⟩
    | _ => cases mem
  have waiters (q : Entry) (mem : q ∈ pooled Worker.waiting? d'.workers) : q ∈ pooled Worker.waiting? d.workers := by
    obtain ⟨v, z, there, own⟩ := mem_pooled.1 mem
    rw [keeps.workers, getElem?_set_worker slot] at there
    split_ifs at there with same
    · obtain rfl := Option.some.inj there
      have : x.entry? = some q := by
        cases x with
        | waiting => exact own
        | _ => cases own
      rw [keeps.own] at this
      rwa [← Option.some.inj this]
    · exact mem_pooled.2 ⟨v, z, there, own⟩
  refine ⟨?_, ?_, ?_, ?_, ?_, ?_, ?_, ?_, ?_⟩
  · intro q mem
    refine lt_of_lt_of_eq (h.inside q ?_) (congrArg List.length keeps.futures.symm)
    show q ∈ d.uncalled
    rw [← uncalled]
    exact Multiset.mem_add.2 (.inl mem)
  · intro q mem
    refine lt_of_lt_of_eq ?_ (congrArg List.length keeps.futures.symm)
    rcases List.mem_append.1 mem with old | new
    · exact h.past q old
    · exact h.inside q (calledMem q new).1
  · have once : (d.uncalled.map Entry.future + ↑(calls.map Entry.future)).Nodup := h.once
    rw [← uncalled, Multiset.map_add] at once
    show (d'.uncalled.map Entry.future + ↑((calls ++ x.called).map Entry.future)).Nodup
    rw [List.map_append, ← Multiset.coe_add, add_comm (↑(calls.map Entry.future) : Multiset ℕ), ← add_assoc]
    exact once
  · show (d'.outstanding.map _).Nodup
    rw [outstanding]
    exact h.apart
  · intro q mem
    show d'.terminal.get? _ = none
    rw [keeps.terminal]
    exact h.fresh q (outstanding ▸ mem)
  · intro v q mine
    show d'.active.get? _ = _
    rw [keeps.active]
    exact h.covered v q ((holding v).symm.trans mine)
  · intro v q busy
    have busy : d'.workers[v]? = some (.handling q) := busy
    rw [keeps.workers, getElem?_set_worker slot] at busy
    split_ifs at busy with same
    · rw [Option.some.inj busy]
      exact List.mem_append.2 (.inr (List.mem_singleton_self q))
    · exact List.mem_append.2 (.inl (h.handled v q busy))
  · intro q mem fin
    rw [isCancelled_congr keeps.futures]
    exact h.queued q (queue ▸ mem) ((done _).symm.trans fin)
  · intro f mem
    obtain ⟨was, quiet, apart⟩ := h.dropped f mem
    refine ⟨(isCancelled_congr keeps.futures f).trans was, ?_, fun q there => apart q (waiters q there)⟩
    intro called
    obtain ⟨q, mem_, rfl⟩ := List.mem_map.1 called
    rcases List.mem_append.1 mem_ with old | new
    · exact quiet (List.mem_map.2 ⟨q, old, rfl⟩)
    · obtain ⟨-, rfl⟩ := calledMem q new
      exact apart q parts rfl

theorem begin {rest : List Entry} (h : Tracked ⟨d, calls, dropped⟩) (idle : d.workers[w]? = some .idle)
    (front : d.queue = e :: rest) (live : d.isCancelled e.future = false) :
    Tracked ⟨{ d.begin w e rest with workers := d.workers.set w (.waiting e 0 false) }, calls, dropped⟩ := by
  have slot := lt_of_worker idle
  have undone : d.isDone e.future = false := by
    by_contra fin
    have := h.queued e (front ▸ List.mem_cons_self) (Bool.eq_true_of_not_eq_false fin)
    exact Bool.false_ne_true (live.symm.trans this)
  have held : pooled Worker.entry? (d.workers.set w (.waiting e 0 false)) = pooled Worker.entry? d.workers + {e} :=
    (add_zero _).symm.trans (pooled_set (y := .waiting e 0 false) Worker.entry? idle)
  have waiters : pooled Worker.waiting? (d.workers.set w (.waiting e 0 false)) =
      pooled Worker.waiting? d.workers + {e} :=
    (add_zero _).symm.trans (pooled_set (y := .waiting e 0 false) Worker.waiting? idle)
  have outstanding : ResidentFastDaemon.outstanding
      { d.begin w e rest with workers := d.workers.set w (.waiting e 0 false) } = d.outstanding := by
    show (↑(rest.filter fun q => !d.isDone q.future) : Multiset Entry) + pooled _ _ = _
    rw [held, ResidentFastDaemon.outstanding, front, List.filter_cons_of_pos (by rw [undone]; rfl),
      ← Multiset.cons_coe, ← Multiset.singleton_add]
    abel
  have uncalled : ResidentFastDaemon.uncalled
      { d.begin w e rest with workers := d.workers.set w (.waiting e 0 false) } = d.uncalled := by
    show (↑rest : Multiset Entry) + pooled _ _ = _
    rw [waiters, ResidentFastDaemon.uncalled, front, ← Multiset.cons_coe, ← Multiset.singleton_add]
    abel
  have once : (d.uncalled.map Entry.future + ↑(calls.map Entry.future)).Nodup := h.once
  have apart : (d.outstanding.map fun e => e.request.requestId).Nodup := h.apart
  refine ⟨?_, h.past, ?_, ?_, ?_, ?_, ?_, ?_, ?_⟩
  · rw [uncalled]
    exact h.inside
  · rw [uncalled]
    exact once
  · rw [outstanding]
    exact apart
  · rw [outstanding]
    exact h.fresh
  · intro v q mine
    have mine : ResidentFastDaemon.holding { d with workers := d.workers.set w (.waiting e 0 false) } v = some q := mine
    rw [holding_set slot] at mine
    show (d.active.set e.request.requestId w).get? _ = _
    split_ifs at mine with same
    · rw [← Option.some.inj mine, Dict.get?_set_self, same]
    · have row : d.active.get? q.request.requestId = some v := h.covered v q mine
      rw [Dict.get?_set_of_ne]
      · exact row
      · intro named
        rw [ResidentFastDaemon.outstanding, Multiset.map_add] at apart
        have waits : e ∈ d.queue.filter fun q => !d.isDone q.future :=
          List.mem_filter.2 ⟨front ▸ List.mem_cons_self, by rw [undone]; rfl⟩
        exact Multiset.disjoint_left.1 (Multiset.nodup_add.1 apart).2.2 (Multiset.mem_map.2 ⟨e, waits, rfl⟩)
          (Multiset.mem_map.2 ⟨q, mem_pooled_entry.2 ⟨v, mine⟩, named⟩)
  · intro v q busy
    have busy : (d.workers.set w (.waiting e 0 false))[v]? = some (.handling q) := busy
    rw [getElem?_set_worker slot] at busy
    split_ifs at busy with same
    · cases busy
    · exact h.handled v q busy
  · intro q mem fin
    exact h.queued q (front ▸ List.mem_cons_of_mem e mem) fin
  · intro f mem
    obtain ⟨was, quiet, apart_⟩ := h.dropped f mem
    refine ⟨was, quiet, fun q waits => ?_⟩
    have waits : q ∈ pooled Worker.waiting? (d.workers.set w (.waiting e 0 false)) := waits
    rw [waiters] at waits
    rcases Multiset.mem_add.1 waits with old | new
    · exact apart_ q old
    · rw [Multiset.mem_singleton.1 new]
      rintro rfl
      exact Bool.false_ne_true (live.symm.trans was)

theorem skip {rest : List Entry} (h : Tracked ⟨d, calls, dropped⟩) (front : d.queue = e :: rest)
    (cancelled : d.isCancelled e.future = true) : Tracked ⟨d.skip rest, calls, dropped⟩ := by
  have outstanding : (d.skip rest).outstanding = d.outstanding := by
    show (↑(rest.filter fun q => !d.isDone q.future) : Multiset Entry) + pooled _ d.workers = _
    rw [ResidentFastDaemon.outstanding, front, List.filter_cons_of_neg]
    rw [isDone_of_isCancelled cancelled]
    decide
  have uncalled : (d.skip rest).uncalled ≤ d.uncalled := by
    show (↑rest : Multiset Entry) + pooled _ d.workers ≤ _
    rw [ResidentFastDaemon.uncalled, front]
    exact add_le_add_left (Multiset.le_cons_self _ e) _
  refine ⟨fun q mem => h.inside q (Multiset.mem_of_le uncalled mem), h.past, ?_, ?_, ?_, h.covered, h.handled, ?_,
    h.dropped⟩
  · exact Multiset.nodup_of_le (add_le_add_left (Multiset.map_le_map uncalled) _) h.once
  · rw [outstanding]
    exact h.apart
  · rw [outstanding]
    exact h.fresh
  · exact fun q mem => h.queued q (front ▸ List.mem_cons_of_mem e mem)

theorem enqueue {request : DaemonRequest} (h : Tracked ⟨d, calls, dropped⟩)
    (fresh : d.terminal.get? request.requestId = none) (inactive : d.active.get? request.requestId = none)
    (unqueued : ¬ d.Queued request.requestId) : Tracked ⟨d.enqueue request, calls, dropped⟩ := by
  have done := isDone_enqueue (d := d) request
  have cancelled (f : ℕ) : (d.enqueue request).isCancelled f = d.isCancelled f := by
    unfold isCancelled
    rw [future_enqueue]
  have undone : d.isDone d.futures.length = false := by
    unfold isDone ResidentFastDaemon.future
    rw [List.getD_eq_getElem?_getD, List.getElem?_eq_none le_rfl]
    rfl
  have length : (d.enqueue request).futures.length = d.futures.length + 1 := List.length_append
  have outstanding : (d.enqueue request).outstanding = d.outstanding + {⟨request, d.futures.length⟩} := by
    show (↑((d.queue ++ [Entry.mk request d.futures.length]).filter fun q => !(d.enqueue request).isDone q.future) :
      Multiset Entry) + pooled _ d.workers = _
    simp only [done]
    rw [List.filter_append, List.filter_singleton, undone, ResidentFastDaemon.outstanding, ← Multiset.coe_add]
    show _ + {_} + _ = _
    abel
  have uncalled : (d.enqueue request).uncalled = d.uncalled + {⟨request, d.futures.length⟩} := by
    show (↑(d.queue ++ [Entry.mk request d.futures.length]) : Multiset Entry) + pooled _ d.workers = _
    rw [ResidentFastDaemon.uncalled, ← Multiset.coe_add]
    show _ + {_} + _ = _
    abel
  have inside : ∀ q ∈ d.uncalled, q.future < d.futures.length := h.inside
  have past : ∀ q ∈ calls, q.future < d.futures.length := h.past
  refine ⟨?_, ?_, ?_, ?_, ?_, h.covered, h.handled, ?_, ?_⟩
  · intro q mem
    show q.future < (d.enqueue request).futures.length
    rw [length]
    rcases Multiset.mem_add.1 (uncalled ▸ mem) with old | new
    · exact Nat.lt_succ_of_lt (inside q old)
    · rw [Multiset.mem_singleton.1 new]
      exact Nat.lt_succ_self _
  · intro q mem
    exact lt_of_lt_of_eq (Nat.lt_succ_of_lt (past q mem)) length.symm
  · have once : (d.uncalled.map Entry.future + ↑(calls.map Entry.future)).Nodup := h.once
    show ((d.enqueue request).uncalled.map Entry.future + _).Nodup
    rw [uncalled, Multiset.map_add, Multiset.map_singleton, add_right_comm, add_comm, Multiset.singleton_add]
    refine Multiset.nodup_cons.2 ⟨fun mem => ?_, once⟩
    rcases Multiset.mem_add.1 mem with waits | called
    · obtain ⟨q, mem, same⟩ := Multiset.mem_map.1 waits
      exact (inside q mem).ne same
    · obtain ⟨q, mem, same⟩ := List.mem_map.1 called
      exact (past q mem).ne same
  · have apart : (d.outstanding.map fun e => e.request.requestId).Nodup := h.apart
    show ((d.enqueue request).outstanding.map _).Nodup
    rw [outstanding, Multiset.map_add, Multiset.map_singleton, add_comm, Multiset.singleton_add]
    refine Multiset.nodup_cons.2 ⟨fun mem => ?_, apart⟩
    obtain ⟨q, mem, same⟩ := Multiset.mem_map.1 mem
    rcases mem_outstanding.1 mem with ⟨waits, pending⟩ | ⟨v, held⟩
    · exact unqueued ⟨q, waits, same, pending⟩
    · have row : d.active.get? q.request.requestId = some v := h.covered v q held
      rw [same, inactive] at row
      cases row
  · intro q mem
    rcases Multiset.mem_add.1 (outstanding ▸ mem) with old | new
    · exact h.fresh q old
    · rw [Multiset.mem_singleton.1 new]
      exact fresh
  · intro q mem fin
    show (d.enqueue request).isCancelled _ = true
    rw [cancelled]
    have fin : d.isDone q.future = true := (done _).symm.trans fin
    rcases List.mem_append.1 mem with old | new
    · exact h.queued q old fin
    · rw [List.mem_singleton.1 new, undone] at fin
      cases fin
  · intro f mem
    obtain ⟨was, quiet, apart⟩ := h.dropped f mem
    exact ⟨(cancelled f).trans was, quiet, apart⟩

theorem cancelFuture (f : ℕ) (h : Tracked ⟨d, calls, dropped⟩) : Tracked ⟨(d.dismiss f).resolve f .cancelled, calls,
    dropped ++ droppedBetween d ((d.dismiss f).resolve f .cancelled)⟩ := by
  have length : ((d.dismiss f).resolve f .cancelled).futures.length = d.futures.length :=
    length_futures_resolve (d.dismiss f) f _
  have done (g : ℕ) (was : d.isDone g = true) : ((d.dismiss f).resolve f .cancelled).isDone g = true := by
    by_cases same : g = f
    · subst same
      have kept : ((d.dismiss g).resolve g .cancelled).futures = d.futures := if_pos was
      rw [isDone_congr kept]
      exact was
    · exact (isDone_resolve_of_ne (d := d.dismiss f) _ same).trans was
  have new (g : ℕ) (inside : g < d.futures.length) (pending : d.isDone g = false)
      (fin : ((d.dismiss f).resolve f .cancelled).isDone g = true) :
      ((d.dismiss f).resolve f .cancelled).isCancelled g = true := by
    by_cases same : g = f
    · subst same
      unfold isCancelled
      rw [future_resolve_self (d := d.dismiss g) _ inside, if_neg]
      exact fun was => Bool.false_ne_true (pending.symm.trans was)
    · rw [isDone_resolve_of_ne (d := d.dismiss f) _ same] at fin
      exact absurd (pending.symm.trans fin) Bool.false_ne_true
  have outstanding : ((d.dismiss f).resolve f .cancelled).outstanding ≤ d.outstanding := by
    refine add_le_add_left (Multiset.coe_le.2 (List.Sublist.subperm ?_)) _
    refine List.monotone_filter_right d.queue fun q pending => ?_
    cases was : d.isDone q.future with
    | false => rfl
    | true =>
      rw [done _ was] at pending
      cases pending
  have once : (d.uncalled.map Entry.future + ↑(calls.map Entry.future)).Nodup := h.once
  refine ⟨?_, ?_, once, ?_, ?_, h.covered, h.handled, ?_, ?_⟩
  · exact fun q mem => lt_of_lt_of_eq (h.inside q mem) length.symm
  · exact fun q mem => lt_of_lt_of_eq (h.past q mem) length.symm
  · exact Multiset.nodup_of_le (Multiset.map_le_map outstanding) h.apart
  · exact fun q mem => h.fresh q (Multiset.mem_of_le outstanding mem)
  · intro q mem fin
    cases was : d.isDone q.future with
    | true => exact isCancelled_resolve (d := d.dismiss f) _ (h.queued q mem was)
    | false => exact new _ (h.inside q (mem_uncalled.2 (.inl mem))) was fin
  · intro g mem
    rcases List.mem_append.1 mem with old | fresh
    · obtain ⟨was, quiet, apart⟩ := h.dropped g old
      exact ⟨isCancelled_resolve (d := d.dismiss f) _ was, quiet, apart⟩
    · obtain ⟨q, found, rfl⟩ := List.mem_map.1 fresh
      obtain ⟨waits, changed⟩ := List.mem_filter.1 found
      have waits : q ∈ d.queue := waits
      rw [Bool.and_eq_true, Bool.not_eq_true'] at changed
      obtain ⟨inner, -, apart⟩ := Multiset.nodup_add.1 once
      refine ⟨new _ (h.inside q (mem_uncalled.2 (.inl waits))) changed.1 changed.2, fun called => ?_,
        fun p there same => ?_⟩
      · exact Multiset.disjoint_left.1 apart (Multiset.mem_map.2 ⟨q, mem_uncalled.2 (.inl waits), rfl⟩) called
      · rw [ResidentFastDaemon.uncalled, Multiset.map_add] at inner
        exact Multiset.disjoint_left.1 (Multiset.nodup_add.1 inner).2.2 (Multiset.mem_map.2 ⟨q, waits, rfl⟩)
          (Multiset.mem_map.2 ⟨p, there, same⟩)

/-! ### Steps -/

theorem advance_frame (h : Tracked ⟨d, calls, dropped⟩) (frame : Frame d d') :
    Tracked (advance ⟨d, calls, dropped⟩ d') := by
  have quiet : calledBetween d d' = [] := calledBetween_eq_nil fun v e => (frame.handling v e).1
  have kept : droppedBetween d d' = [] := droppedBetween_eq_nil fun e _ => isDone_congr frame.futures _
  unfold advance
  dsimp only
  rw [quiet, kept, List.append_nil, List.append_nil]
  exact h.frame frame

theorem advance_ends {state : FutureState} (h : Tracked ⟨d, calls, dropped⟩) (held : d.holding w = some e)
    (done : Ends d w e x state d') : Tracked (advance ⟨d, calls, dropped⟩ d') := by
  obtain ⟨old, there, -⟩ := Option.bind_eq_some_iff.1 held
  have free : x.called = [] := by
    have := done.free
    cases x <;> first | rfl | cases this
  have quiet : calledBetween d d' = [] := by
    rw [calledBetween_set there done.workers, free, ite_self]
  have kept : droppedBetween d d' = [] := by
    refine droppedBetween_eq_nil fun q mem => done.isDone ?_
    exact h.queue_ne held q (done.queue ▸ mem)
  unfold advance
  dsimp only
  rw [quiet, kept, List.append_nil, List.append_nil]
  exact h.ends held done

theorem advance_wake (h : Tracked ⟨d, calls, dropped⟩) (w : ℕ) : Tracked (advance ⟨d, calls, dropped⟩ (d.wake w)) := by
  have wakes := wakes_wake d w
  generalize d.wake w = d' at wakes ⊢
  cases wakes with
  | nothing => exact h.advance_frame (.refl d)
  | resumed e t must waits o =>
    rcases turn_resume d w e t (if must then .cancelled else o) with ⟨x, keeps⟩ | ⟨x, state, ends⟩
    · have called : calledBetween d _ = x.called := calledBetween_set waits keeps.workers
      have kept : droppedBetween d _ = [] := droppedBetween_eq_nil fun q _ => isDone_congr keeps.futures _
      unfold advance
      dsimp only
      rw [called, kept, List.append_nil]
      exact h.keeps waits keeps
    · exact h.advance_ends (holding_of_worker waits) ends

theorem advance_take (h : Tracked ⟨d, calls, dropped⟩) (w : ℕ) :
    Tracked (advance ⟨d, calls, dropped⟩ (d.take cfg w)) := by
  have takes := takes_take cfg d w
  generalize d.take cfg w = d' at takes ⊢
  cases takes with
  | nothing => exact h.advance_frame (.refl d)
  | skipped _ e rest front cancelled =>
    have quiet : calledBetween d (d.skip rest) = [] := calledBetween_eq_nil fun _ _ busy => busy
    have kept : droppedBetween d (d.skip rest) = [] := droppedBetween_eq_nil fun _ _ => rfl
    unfold advance
    dsimp only
    rw [quiet, kept, List.append_nil, List.append_nil]
    exact h.skip front cancelled
  | started idle e rest front live d' starts =>
    have slot := lt_of_worker idle
    have taken := h.begin idle front live
    have waits : (d.workers.set w (.waiting e 0 false))[w]? = some (.waiting e 0 false) := by
      rw [getElem?_set_worker slot, if_pos rfl]
    have set_set (x : Worker) : (d.begin w e rest).workers.set w x =
        (d.workers.set w (.waiting e 0 false)).set w x := (List.set_set _).symm
    rcases turn_starts starts with ⟨x, keeps⟩ | ⟨x, state, ends⟩
    · have called : calledBetween d d' = x.called := calledBetween_set (x := .idle) idle keeps.workers
      have kept : droppedBetween d d' = [] := droppedBetween_eq_nil fun q _ =>
        isDone_congr (d := d) keeps.futures _
      unfold advance
      dsimp only
      rw [called, kept, List.append_nil]
      exact taken.keeps waits ⟨keeps.own, keeps.workers.trans (set_set x), keeps.queue, keeps.futures,
        keeps.terminal, keeps.active⟩
    · have done : Ends { d.begin w e rest with workers := d.workers.set w (.waiting e 0 false) } w e x state d' :=
        ⟨ends.free, ends.workers.trans (set_set x), ends.queue, ends.done, ends.futures, ends.terminal, ends.active⟩
      have held := holding_of_worker
        (d := { d.begin w e rest with workers := d.workers.set w (.waiting e 0 false) }) waits
      have free : x.called = [] := by
        have := ends.free
        cases x <;> first | rfl | cases this
      have called : calledBetween d d' = [] := (calledBetween_set (x := .idle) idle ends.workers).trans free
      have kept : droppedBetween d d' = [] := by
        refine droppedBetween_eq_nil fun q mem => done.isDone ?_
        exact taken.queue_ne held q (done.queue ▸ mem)
      unfold advance
      dsimp only
      rw [called, kept, List.append_nil, List.append_nil]
      exact taken.ends held done

theorem step {s : Watched} (h : Tracked s) (event : Event) (careful : Careful cfg s.daemon event) :
    Tracked (s.step cfg event) := by
  obtain ⟨d, calls, dropped⟩ := s
  cases event with
  | start => exact h.advance_frame (frame_start cfg d)
  | submit now value =>
    have submits := submits_submit cfg d now value
    show Tracked (advance _ (d.submit cfg now value).1)
    generalize (d.submit cfg now value).1 = d' at submits
    cases submits with
    | nothing => exact h.advance_frame (.refl d)
    | queued request ready read fresh inactive timely room =>
      have quiet : calledBetween d (d.enqueue request) = [] := calledBetween_eq_nil fun _ _ busy => busy
      have kept : droppedBetween d (d.enqueue request) = [] := droppedBetween_eq_nil fun e _ =>
        isDone_enqueue request e.future
      unfold advance
      dsimp only
      rw [quiet, kept, List.append_nil, List.append_nil]
      exact h.enqueue fresh inactive (careful request read ready fresh inactive timely room)
  | cancel id => exact h.advance_frame (frame_of_cancels (cancels_cancel d id) careful)
  | expire f =>
    have expires := expires_expire d f
    show Tracked (advance _ (d.expire f))
    generalize d.expire f = d' at expires
    cases expires with
    | nothing => exact h.advance_frame (.refl d)
    | expired e waits d' cancels =>
      have cancelled := h.cancelFuture f
      have frame := frame_of_cancels cancels (careful e waits)
      have quiet : calledBetween d d' = [] := calledBetween_eq_nil fun v e => (frame.handling v e).1
      have kept : droppedBetween d d' = droppedBetween d ((d.dismiss f).resolve f .cancelled) := by
        unfold droppedBetween
        rw [frame.queue]
        simp only [isDone_congr frame.futures]
      unfold advance
      dsimp only
      rw [quiet, kept, List.append_nil]
      exact cancelled.frame frame
  | leave f => exact h.advance_frame ⟨fun _ => rfl, fun _ _ => .rfl, rfl, rfl, rfl, rfl, rfl⟩
  | take w => exact h.advance_take w
  | wake w => exact h.advance_wake w
  | opened t o => exact h.advance_frame (frame_opened d t o)
  | handled w o latency =>
    rcases handled_eq_or_ends cfg d w o latency with same | ⟨e, x, state, busy, ends⟩
    · show Tracked (advance _ (d.handled cfg w o latency))
      rw [same]
      exact h.advance_frame (.refl d)
    · exact h.advance_ends (holding_of_worker busy) ends
  | shutdown drain => exact h.advance_frame (frame_shutdown d drain)
  | drained i => exact h.advance_frame (frame_drained d i)
  | gathered i => exact h.advance_frame (frame_gathered cfg d i)
  | close i returns => exact h.advance_frame (frame_close d i returns)
  | finish i => exact h.advance_frame (frame_finish d i)
  | crash => exact h.advance_frame (frame_crash d)
  | crashed i =>
    have cleared : Tracked ⟨{ d with active := (d.crashed i).active }, calls, dropped⟩ := by
      refine ⟨h.inside, h.past, h.once, h.apart, h.fresh, fun w e held => ?_, h.handled, h.queued, h.dropped⟩
      rcases active_crashed d i with same | ⟨-, ws, call, ended⟩
      · show (d.crashed i).active.get? _ = _
        rw [same]
        exact h.covered w e held
      · obtain ⟨x, there, own⟩ := Option.bind_eq_some_iff.1 held
        have := careful ws call ended x (List.mem_of_getElem? there)
        rw [own] at this
        cases this
    exact cleared.advance_frame (frame_crashed d i)

end Tracked

/-- A run that starts the daemon, submits no id that is queued, cancels nothing that is queued and clears no running
request calls the handler at most once for each outstanding id, and never for a request cancelled in the queue. -/
theorem once_of_careful (cfg : Config) (events : List Event)
    (careful : Along (step cfg) (fun s event => Careful cfg s.daemon event) {} events) :
    Always (step cfg) Once {} events := by
  have start : Tracked {} := by
    refine ⟨?_, nofun, ?_, ?_, ?_, ?_, nofun, nofun, nofun⟩
    · exact fun e none => absurd none (Multiset.notMem_zero e)
    · exact Multiset.nodup_zero
    · exact Multiset.nodup_zero
    · exact fun e none => absurd none (Multiset.notMem_zero e)
    · exact fun w e none => by cases none
  rintro before after rfl
  have tracked : Tracked (run (step cfg) {} before) :=
    (along_append.1 careful).1.run_invariant start fun s event tracked care => tracked.step event care
  exact tracked.toOnce

/-! ## A request that is submitted twice -/

/-- A request is taken, submitted again while it runs, answered, and submitted again. -/
def answeredRun : List Event :=
  [.start, .submit 0 (requestJson "r"), .take 0, .submit 0 (requestJson "r"), .opened 0 .pin, .wake 0,
    .handled 0 (.returned []) 0, .submit 0 (requestJson "r")]

theorem once_answeredRun : Along (step (crewOf 1)) (fun s event => Careful (crewOf 1) s.daemon event) {} answeredRun ∧
    Always (step (crewOf 1)) Once {} answeredRun := by
  have careful : Along (step (crewOf 1)) (fun s event => Careful (crewOf 1) s.daemon event) {} answeredRun := by
    refine ⟨trivial, ?_, trivial, ?_, trivial, trivial, trivial, ?_, trivial⟩
    · rintro request _ _ _ _ _ _ ⟨e, mem, _⟩
      cases mem
    · rintro request _ _ _ _ _ _ ⟨e, mem, _⟩
      cases mem
    · rintro request _ _ _ _ _ _ ⟨e, mem, _⟩
      cases mem
  exact ⟨careful, once_of_careful (crewOf 1) answeredRun careful⟩

/-- A request is submitted again while it is queued, and a second worker is idle. -/
def duplicateRun : List Event :=
  [.start, .submit 0 (requestJson "r"), .submit 0 (requestJson "r"), .take 0, .take 1, .opened 0 .pin, .wake 0, .wake 1]

/-- Two handlers run for one id. -/
theorem not_once_duplicateRun : ¬ Always (step (crewOf 1)) Once {} duplicateRun := by
  intro always
  have apart := (always duplicateRun [] (List.append_nil _).symm).apart
  revert apart
  decide +kernel

end Daemon.Watched

end SimplicioFast
