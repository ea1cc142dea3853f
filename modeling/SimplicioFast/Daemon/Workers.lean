import SimplicioFast.Daemon.Steps

/-!
# The workers of a ready daemon

A worker that sees `CancelledError` behind an opening or in the handler ends, and no worker is made in its place.  So
`max_inflight` workers consume the queue in every ready state of a run exactly when no step lets one end
(`fullCrew_iff`).
-/

namespace SimplicioFast

open Daemon Machine

namespace ResidentFastDaemon

variable {cfg : Config} {d : ResidentFastDaemon} {w : ℕ} {e : Entry}

/-! ## Counting the workers -/

theorem consumers_set {x y : Worker} (there : d.workers[w]? = some x) (alive : x.isAlive = y.isAlive) :
    consumers { d with workers := d.workers.set w y } = d.consumers := by
  have counted := countP_set_worker (y := y) there
  rw [alive] at counted
  exact Nat.add_right_cancel counted

theorem consumers_set_dead {x : Worker} (there : d.workers[w]? = some x) (alive : x.isAlive = true) :
    consumers { d with workers := d.workers.set w .dead } + 1 = d.consumers := by
  have counted := countP_set_worker (y := .dead) there
  rw [if_pos alive] at counted
  exact counted

/-- Behind an opening a worker ends exactly with `CancelledError`. -/
theorem consumers_resume {x : Worker} (there : d.workers[w]? = some x) (alive : x.isAlive = true) (t : ℕ)
    (o : OpenOutcome) : (d.resume w e t o).consumers + (if o = .cancelled then 1 else 0) = d.consumers := by
  cases o with
  | pin => exact consumers_set there alive
  | failed x => exact consumers_set there alive
  | cancelled => exact consumers_set_dead there alive

theorem consumers_starts {d' : ResidentFastDaemon} (idle : d.workers[w]? = some .idle) (starts : Starts cfg d w e d')
    (spared : ∀ t o, d.pins.get? e.request.generation = none → d.opening.get? e.request.generation = some t →
      d.outcome? t = some o → cfg.hasOpener = true → o ≠ .cancelled) : d'.consumers = d.consumers := by
  cases starts with
  | pinned => exact consumers_set idle rfl
  | own => exact consumers_set (d := d.ownPin e) idle rfl
  | launched => exact consumers_set (y := .waiting _ _ _) idle rfl
  | joined => exact consumers_set idle rfl
  | resumed opens absent t running o ended =>
    have counted := consumers_resume (e := e) idle rfl t o
    rwa [if_neg (spared t o absent running ended opens)] at counted

theorem consumers_cancelWorker (d : ResidentFastDaemon) (w : ℕ) :
    ((∃ e, d.holding w = some e) → (d.cancelWorker w).consumers = d.consumers) ∧
      (d.workers[w]? = some .idle → (d.cancelWorker w).consumers + 1 = d.consumers) ∧
      (d.workers[w]? ≠ some .idle → (d.cancelWorker w).consumers = d.consumers) := by
  unfold cancelWorker
  split
  · rename_i idle
    refine ⟨?_, fun _ => consumers_set_dead idle rfl, fun busy => absurd idle busy⟩
    rintro ⟨e, held⟩
    rw [holding_of_worker idle] at held
    cases held
  · rename_i e t must waits
    refine ⟨fun _ => ?_, fun idle => ?_, fun _ => ?_⟩
    · split
      · rfl
      · exact consumers_set waits rfl
    · rw [waits] at idle
      cases idle
    · split
      · rfl
      · exact consumers_set waits rfl
  · rename_i not_idle _
    exact ⟨fun _ => rfl, fun idle => absurd idle not_idle, fun _ => rfl⟩

theorem consumers_cancelWorkers_le (d : ResidentFastDaemon) (l : List ℕ) :
    (d.cancelWorkers l).consumers ≤ d.consumers := by
  induction l generalizing d with
  | nil => exact le_rfl
  | cons w l ih =>
    refine (ih (d.cancelWorker w)).trans ?_
    obtain ⟨-, idle, busy⟩ := consumers_cancelWorker d w
    by_cases h : d.workers[w]? = some .idle
    · have := idle h
      omega
    · exact (busy h).le

theorem idle_of_cancelWorker {v : ℕ} (h : (d.cancelWorker w).workers[v]? = some .idle) : d.workers[v]? = some .idle := by
  unfold cancelWorker at h
  split at h
  · rename_i idle
    rw [getElem?_set_worker (lt_of_worker idle)] at h
    split_ifs at h
    · cases h
    · exact h
  · rename_i e t must waits
    split at h
    · exact h
    · rw [getElem?_set_worker (lt_of_worker waits)] at h
      split_ifs at h
      · cases h
      · exact h
  · exact h

theorem consumers_cancelWorkers_iff (d : ResidentFastDaemon) (l : List ℕ) :
    (d.cancelWorkers l).consumers = d.consumers ↔ ∀ w ∈ l, d.workers[w]? ≠ some .idle := by
  induction l generalizing d with
  | nil => simp [cancelWorkers]
  | cons w l ih =>
    obtain ⟨-, idle, busy⟩ := consumers_cancelWorker d w
    have rest := consumers_cancelWorkers_le (d.cancelWorker w) l
    show (cancelWorkers (d.cancelWorker w) l).consumers = d.consumers ↔ _
    rw [List.forall_mem_cons]
    by_cases h : d.workers[w]? = some .idle
    · have := idle h
      exact iff_of_false (by omega) fun all => all.1 h
    · rw [and_iff_right h]
      have same := busy h
      rw [← same, ih]
      refine forall₂_congr fun v _ => not_congr ⟨idle_of_cancelWorker, fun there => ?_⟩
      have apart : v ≠ w := by
        rintro rfl
        exact h there
      unfold cancelWorker
      split
      · rename_i own
        exact absurd own h
      · rename_i waits
        split
        · exact there
        · rw [getElem?_set_worker (lt_of_worker waits), if_neg apart]
          exact there
      · exact there

/-! ## The law -/

variable (cfg) in
/-- In the ready state, `max_inflight` workers consume the queue. -/
def FullCrew (d : ResidentFastDaemon) : Prop := d.mode = .ready → d.consumers = cfg.maxInflight

/-- The step lets no worker end while the daemon is ready, and a start finds no worker of an earlier start.

A worker ends when it sees `CancelledError` behind an opening or when the handler ends with it; a call of `shutdown`
that waits for the queue while the daemon crashes and starts again cancels the new crew. -/
def Spares (cfg : Config) (d : ResidentFastDaemon) : Event → Prop
  | .start => d.mode = .stopped ∨ d.mode = .crashed → d.consumers = 0
  | .wake w => d.mode = .ready → ∀ r, d.wakes? w = some r → r.outcome ≠ .cancelled
  | .take w => d.mode = .ready → ∀ r, d.passes? cfg w = some r → r.outcome ≠ .cancelled
  | .handled w .cancelled _ => d.mode = .ready → ∀ e, d.workers[w]? ≠ some (.handling e)
  | .drained i => d.mode = .ready → d.shutdowns[i]? = some .draining → d.unfinished = 0 →
    ∀ w ∈ d.crew, d.workers[w]? ≠ some .idle
  | _ => True

theorem mode_resume (d : ResidentFastDaemon) (w : ℕ) (e : Entry) (t : ℕ) (o : OpenOutcome) :
    (d.resume w e t o).mode = d.mode := by
  cases o <;> rfl

theorem mode_take (d : ResidentFastDaemon) (w : ℕ) : (d.take cfg w).mode = d.mode := by
  have takes := takes_take cfg d w
  generalize d.take cfg w = d' at takes ⊢
  cases takes with
  | nothing => rfl
  | skipped => rfl
  | started _ e rest _ _ _ starts =>
    cases starts with
    | resumed => exact mode_resume _ w e _ _
    | _ => rfl

theorem mode_wake (d : ResidentFastDaemon) (w : ℕ) : (d.wake w).mode = d.mode := by
  have wakes := wakes_wake d w
  generalize d.wake w = d' at wakes ⊢
  cases wakes with
  | nothing => rfl
  | resumed e t => exact mode_resume d w e t _

theorem mode_handled (d : ResidentFastDaemon) (w : ℕ) (o : HandlerOutcome) (latency : ℕ) :
    (d.handled cfg w o latency).mode = d.mode := by
  have handles := handles_handled cfg d w o latency
  generalize d.handled cfg w o latency = d' at handles ⊢
  cases handles <;> rfl

theorem mode_cancels {id : PyStr} {d' : ResidentFastDaemon} (cancels : Cancels d id d') : d'.mode = d.mode := by
  cases cancels with
  | worker w =>
    obtain ⟨ws, ts, e⟩ := cancelWorker_eq d w
    rw [e]
  | _ => rfl

theorem mode_expire (d : ResidentFastDaemon) (f : ℕ) : (d.expire f).mode = d.mode := by
  have expires := expires_expire d f
  generalize d.expire f = d' at expires ⊢
  cases expires with
  | expired e _ _ cancels => exact mode_cancels (d := (d.dismiss f).resolve f .cancelled) cancels
  | nothing => rfl

theorem consumers_cancels {id : PyStr} {d' : ResidentFastDaemon} (listed : Listed d) (cancels : Cancels d id d') :
    d'.consumers = d.consumers := by
  cases cancels with
  | worker w busy =>
    obtain ⟨e, held, -⟩ := listed id w busy
    exact (consumers_cancelWorker d w).1 ⟨e, held⟩
  | _ => rfl

theorem consumers_take_iff (d : ResidentFastDaemon) (w : ℕ) :
    (d.take cfg w).consumers = d.consumers ↔ ∀ r, d.passes? cfg w = some r → r.outcome ≠ .cancelled := by
  cases passes : d.passes? cfg w with
  | some r =>
    obtain ⟨rest, idle, -, -, same⟩ := passes?_some passes
    have counted := consumers_resume (d := d.begin w r.entry rest) (e := r.entry) idle rfl r.task r.outcome
    rw [same]
    by_cases cancelled : r.outcome = .cancelled
    · rw [if_pos cancelled] at counted
      have old : (d.begin w r.entry rest).consumers = d.consumers := rfl
      exact iff_of_false (by omega) fun spared => spared r rfl cancelled
    · rw [if_neg cancelled] at counted
      refine iff_of_true counted fun r' e => ?_
      rwa [← Option.some.inj e]
  | none =>
    refine iff_of_true ?_ fun r e => by cases e
    have takes := takes_take cfg d w
    generalize d.take cfg w = d' at takes ⊢
    cases takes with
    | nothing => rfl
    | skipped => rfl
    | started idle e rest front live d' starts =>
      refine consumers_starts (d := d.begin w e rest) idle starts fun t o absent running ended opens => ?_
      rw [passes?_eq idle front live opens absent running ended] at passes
      cases passes

theorem consumers_wake_iff (d : ResidentFastDaemon) (w : ℕ) :
    (d.wake w).consumers = d.consumers ↔ ∀ r, d.wakes? w = some r → r.outcome ≠ .cancelled := by
  cases wakes : d.wakes? w with
  | some r =>
    obtain ⟨must, waits, -, same⟩ := wakes?_some wakes
    have counted := consumers_resume (e := r.entry) waits rfl r.task r.outcome
    rw [same]
    by_cases cancelled : r.outcome = .cancelled
    · rw [if_pos cancelled] at counted
      exact iff_of_false (by omega) fun spared => spared r rfl cancelled
    · rw [if_neg cancelled] at counted
      refine iff_of_true counted fun r' e => ?_
      rwa [← Option.some.inj e]
  | none =>
    refine iff_of_true ?_ fun r e => by cases e
    have cases_ := wakes_wake d w
    generalize d.wake w = d' at cases_ ⊢
    cases cases_ with
    | nothing => rfl
    | resumed e t must waits o ended seen =>
      rw [wakes] at seen
      cases seen

theorem consumers_handled_iff (d : ResidentFastDaemon) (w : ℕ) (o : HandlerOutcome) (latency : ℕ) :
    (d.handled cfg w o latency).consumers = d.consumers ↔
      (o = .cancelled → ∀ e, d.workers[w]? ≠ some (.handling e)) := by
  have handles := handles_handled cfg d w o latency
  generalize d.handled cfg w o latency = d' at handles ⊢
  cases handles with
  | completed e busy => exact iff_of_true (consumers_set busy rfl) nofun
  | unwritable e busy => exact iff_of_true (consumers_set busy rfl) nofun
  | invalid e busy => exact iff_of_true (consumers_set busy rfl) nofun
  | raised e busy => exact iff_of_true (consumers_set busy rfl) nofun
  | cancelled e busy =>
    have counted : (d.die w e).consumers + 1 = d.consumers := consumers_set_dead busy rfl
    exact iff_of_false (by omega) fun idle => idle rfl e busy
  | nothing _ idle => exact iff_of_true rfl fun _ => idle

theorem drained_iff (d : ResidentFastDaemon) (i : ℕ) : (d.drained i).consumers = d.consumers ↔
    (d.shutdowns[i]? = some .draining → d.unfinished = 0 → ∀ w ∈ d.crew, d.workers[w]? ≠ some .idle) := by
  unfold drained
  split
  · rename_i waits
    by_cases done : d.unfinished = 0
    · rw [if_pos done]
      exact (consumers_cancelWorkers_iff d d.crew).trans ⟨fun h _ _ => h, fun h => h waits done⟩
    · rw [if_neg done]
      exact iff_of_true rfl fun _ zero => absurd zero done
  · rename_i other
    exact iff_of_true rfl fun waits => absurd waits other

theorem mode_drained (d : ResidentFastDaemon) (i : ℕ) : (d.drained i).mode = d.mode := by
  unfold drained
  split
  · split_ifs
    · obtain ⟨ws, ts, e⟩ := cancelWorkers_eq d d.crew
      rw [e]
    · rfl
  · rfl

theorem fullCrew_iff_of_mode {d' : ResidentFastDaemon} (full : d.FullCrew cfg) (mode : d'.mode = d.mode) :
    d'.FullCrew cfg ↔ (d.mode = .ready → d'.consumers = d.consumers) := by
  unfold FullCrew
  rw [mode]
  exact forall_congr' fun ready => by rw [full ready]

theorem fullCrew_of_mode {d' : ResidentFastDaemon} (mode : d'.mode ≠ .ready) : d'.FullCrew cfg := fun ready =>
  absurd ready mode

theorem fullCrew_step_iff (listed : Listed d) (full : d.FullCrew cfg) (event : Event) :
    (d.step cfg event).FullCrew cfg ↔ d.Spares cfg event := by
  cases event with
  | start =>
    show (d.start cfg).FullCrew cfg ↔ _
    unfold start Spares
    by_cases off : d.mode = .stopped ∨ d.mode = .crashed
    · rw [if_pos off]
      have counted : consumers { d with
          epoch := d.epoch + 1
          crew := (List.range cfg.maxInflight).map (d.workers.length + ·)
          workers := d.workers ++ List.replicate cfg.maxInflight .idle
          mode := .ready } = d.consumers + cfg.maxInflight := by
        show (d.workers ++ List.replicate cfg.maxInflight Worker.idle).countP Worker.isAlive = _
        rw [List.countP_append, List.countP_replicate]
        rfl
      constructor
      · intro crew _
        have := crew rfl
        omega
      · intro nobody _
        have := nobody off
        omega
    · rw [if_neg off]
      exact iff_of_true full fun other => absurd other off
  | submit now value =>
    refine iff_of_true ?_ trivial
    have submits := submits_submit cfg d now value
    show (d.submit cfg now value).1.FullCrew cfg
    generalize (d.submit cfg now value).1 = d' at submits
    cases submits <;> exact full
  | cancel id =>
    have cancels := cancels_cancel d id
    exact iff_of_true ((fullCrew_iff_of_mode full (mode_cancels cancels)).2 fun _ => consumers_cancels listed cancels)
      trivial
  | expire f =>
    refine iff_of_true ((fullCrew_iff_of_mode full (mode_expire d f)).2 fun _ => ?_) trivial
    have expires := expires_expire d f
    generalize d.expire f = d' at expires ⊢
    cases expires with
    | expired e _ _ cancels => exact consumers_cancels (d := (d.dismiss f).resolve f .cancelled) listed cancels
    | nothing => rfl
  | leave f => exact iff_of_true full trivial
  | take w =>
    exact (fullCrew_iff_of_mode full (mode_take d w)).trans (imp_congr_right fun _ => consumers_take_iff d w)
  | wake w =>
    exact (fullCrew_iff_of_mode full (mode_wake d w)).trans (imp_congr_right fun _ => consumers_wake_iff d w)
  | opened t o =>
    refine iff_of_true ?_ trivial
    show (d.opened t o).FullCrew cfg
    unfold opened
    split <;> exact full
  | handled w o latency =>
    refine (fullCrew_iff_of_mode full (mode_handled d w o latency)).trans ?_
    have kept : (d.handled cfg w o latency).consumers = d.consumers ↔ _ := consumers_handled_iff d w o latency
    cases o with
    | cancelled => exact imp_congr_right fun _ => kept.trans ⟨fun h => h rfl, fun h _ => h⟩
    | _ => exact iff_of_true (fun _ => kept.2 nofun) trivial
  | shutdown drain =>
    refine iff_of_true ?_ trivial
    show (d.shutdown drain).FullCrew cfg
    unfold shutdown
    split_ifs with off
    · exact full
    · exact fullCrew_of_mode nofun
    · obtain ⟨ws, ts, e⟩ := cancelWorkers_eq { d with mode := .draining } d.crew
      dsimp only
      rw [e]
      exact fullCrew_of_mode nofun
  | drained i =>
    exact (fullCrew_iff_of_mode full (mode_drained d i)).trans (imp_congr_right fun _ => drained_iff d i)
  | gathered i =>
    refine iff_of_true ?_ trivial
    show (d.gathered cfg i).FullCrew cfg
    unfold gathered
    split
    · rename_i ws _
      by_cases ended : d.allDead ws
      · rw [if_pos ended]
        exact full
      · rw [if_neg ended]
        exact full
    · exact full
  | close i returns =>
    refine iff_of_true ?_ trivial
    show (d.close i returns).FullCrew cfg
    unfold close
    split <;> exact full
  | finish i =>
    refine iff_of_true ?_ trivial
    show (d.finish i).FullCrew cfg
    unfold finish
    split
    · exact fullCrew_of_mode nofun
    · exact full
  | crash =>
    refine iff_of_true ?_ trivial
    obtain ⟨ws, ts, e⟩ := cancelWorkers_eq { d with mode := .crashed } d.crew
    show d.crash.FullCrew cfg
    unfold crash
    dsimp only
    rw [e]
    exact fullCrew_of_mode nofun
  | crashed i =>
    refine iff_of_true ?_ trivial
    show (d.crashed i).FullCrew cfg
    unfold crashed
    split
    · split_ifs <;> exact full
    · exact full

/-- `max_inflight` workers consume the queue in every ready state of a run exactly when all its steps spare them. -/
theorem fullCrew_iff (cfg : Config) (events : List Event) :
    Always (step cfg) (FullCrew cfg) {} events ↔ Along (step cfg) (Spares cfg) {} events := by
  refine always_iff_along_of_invariant (J := Listed) (fun _ _ found => by cases found)
    (fun d event listed => listed_step listed event) (fun ready => by cases ready) ?_
  exact fun d event listed full => fullCrew_step_iff listed full event

/-! ## A cancelled request -/

/-- One worker, an opener and a closer. -/
def oneWorker : Config where
  maxInflight := 1
  queueCapacity := 64
  hasOpener := true
  hasCloser := true
  maxInflight_pos := Nat.one_pos
  queueCapacity_pos := (Daemon.crewOf 0).queueCapacity_pos

/-- A request is taken, its generation is opened, the handler is called, and the request is cancelled. -/
def cancelledRun : List Event :=
  [.start, .submit 0 (requestJson "r"), .take 0, .opened 0 .pin, .wake 0, .cancel "r", .handled 0 .cancelled 0]

/-- The only worker of the daemon is gone, and the daemon is ready. -/
theorem not_fullCrew_cancelledRun : ¬ Always (step oneWorker) (FullCrew oneWorker) {} cancelledRun := by
  intro always
  have full := always cancelledRun [] (List.append_nil _).symm (by decide +kernel)
  revert full
  decide +kernel

end ResidentFastDaemon

end SimplicioFast
