import SimplicioFast.Lib.Dict
import SimplicioFast.Lib.Lists
import SimplicioFast.Lib.Machine
import SimplicioFast.Lib.Sha256
import SimplicioFast.Lib.Text

/-!
# The content cache

`ContentCache.get` returns the stored value of a key, waits for the task that computes it, or makes such a task.
`ContentCache.invalidate` drops the stored values that depend on changed paths.

The calls and the tasks run in one event loop, so a step is what one of them does before it waits: a call begins, a task
begins its computation, a computation ends, a call goes on after its task, or values are invalidated.

A task that is computing stores its value whatever was invalidated meanwhile, and calls that wait for it return that
value.  Apart from this no call returns a value that was outdated (`fresh_of_quiet`).
-/

namespace SimplicioFast

/-- What `get` raises: what the computation raises, or its own. -/
inductive ContentRaised (ε : Type)
  | compute (e : ε)
  | cacheError (message : PyStr)
deriving DecidableEq

/-- An entry of `values`, with the task that computed it. -/
structure ContentEntry where
  value : Bytes
  digest : PyStr
  task : ℕ

/-- The counters `metrics`. -/
structure ContentMetrics where
  hit : ℕ := 0
  coalesced : ℕ := 0
  miss : ℕ := 0
  stale : ℕ := 0

/-- `ContentCache`; a flight is the number of its task. -/
structure ContentCache where
  values : Dict PyStr ContentEntry := .empty
  deps : Dict PyStr (List PyStr) := .empty
  flights : Dict PyStr ℕ := .empty
  metrics : ContentMetrics := {}

namespace ContentCache

variable {ε : Type}

/-- `hashlib.sha256(value).hexdigest()`. -/
def hexdigest (value : Bytes) : PyStr := PyStr.ofChars (Sha256.hexdigest value)

def invalidate (self : ContentCache) (changed : List PyStr) : ContentCache × List PyStr :=
  let doomed := (self.deps.entries.filter fun e => e.2.any (· ∈ changed)).map Prod.fst
  ({ self with
      values := doomed.foldl Dict.erase self.values
      deps := doomed.foldl Dict.erase self.deps
      metrics := { self.metrics with stale := self.metrics.stale + doomed.length } },
    PyStr.sortedSet doomed)

/-- A task that computes the value of a key: how many invalidations there had been when its computation began, and what
came out of it. -/
structure Task (ε : Type) where
  key : PyStr
  deps : List PyStr
  began : Option ℕ := none
  outcome : Option (Except ε Bytes) := none

/-- Where a call is: it waits for the task that it made, it waits for the task of another call, or it is done, after as
many invalidations, with the outcome of a task. -/
inductive GetAt (ε : Type)
  | owner (task : ℕ)
  | waiter (task : ℕ)
  | done (task after : ℕ) (outcome : Except (ContentRaised ε) Bytes)
deriving DecidableEq

def GetAt.pending : GetAt ε → Option ℕ
  | .owner task => some task
  | .waiter task => some task
  | .done _ _ _ => none

/-- A call of `get`. -/
structure Get (ε : Type) where
  key : PyStr
  deps : List PyStr
  pc : GetAt ε

/-- The cache, the tasks, the calls of `get`, and the paths of each call of `invalidate` that has returned. -/
structure World (ε : Type) where
  self : ContentCache
  tasks : List (Task ε)
  gets : List (Get ε)
  invalidations : List (List PyStr)

/-- The world in which nothing was called. -/
def World.start : World ε := ⟨{}, [], [], []⟩

/-- What happens next.  A call whose task is done goes on, and may be interrupted there. -/
inductive Event (ε : Type)
  | get (key : PyStr) (deps : List PyStr)
  | begin_ (task : ℕ)
  | finish (task : ℕ) (outcome : Except ε Bytes)
  | resume (call : ℕ) (interrupted : Option ε)
  | invalidate (changed : List PyStr)

/-- The outcome of a task, for the calls that wait for it. -/
def received (interrupted : Option ε) (outcome : Except ε Bytes) : Except (ContentRaised ε) Bytes :=
  match interrupted with
  | some e => .error (.compute e)
  | none => outcome.mapError .compute

namespace World

variable (w : World ε)

def count (f : ContentMetrics → ContentMetrics) : World ε :=
  { w with self := { w.self with metrics := f w.self.metrics } }

def addGet (key : PyStr) (deps : List PyStr) (pc : GetAt ε) : World ε := { w with gets := w.gets ++ [⟨key, deps, pc⟩] }

def ends (task : ℕ) (outcome : Except (ContentRaised ε) Bytes) : GetAt ε := .done task w.invalidations.length outcome

/-- `get` up to where it waits. -/
def get (key : PyStr) (deps : List PyStr) : World ε :=
  match w.self.values.get? key with
  | some entry =>
    if hexdigest entry.value ≠ entry.digest then
      w.addGet key deps (w.ends entry.task (.error (.cacheError "cache_corrupt")))
    else (w.count fun m => { m with hit := m.hit + 1 }).addGet key deps (w.ends entry.task (.ok entry.value))
  | none => match w.self.flights.get? key with
    | some task =>
      let counted := w.count fun m => { m with coalesced := m.coalesced + 1 }
      -- a task that is done is not waited for
      match w.tasks[task]?.bind Task.outcome with
      | some outcome => counted.addGet key deps (w.ends task (received none outcome))
      | none => counted.addGet key deps (.waiter task)
    | none =>
      let made : World ε := { w with
        self := { w.self with flights := w.self.flights.set key w.tasks.length }
        tasks := w.tasks ++ [{ key := key, deps := deps }] }
      made.addGet key deps (.owner w.tasks.length)

def begin_ (t : ℕ) (task : Task ε) : World ε :=
  { w with tasks := w.tasks.set t { task with began := some w.invalidations.length } }

def finish (t : ℕ) (task : Task ε) (outcome : Except ε Bytes) : World ε :=
  let ended := { w with tasks := w.tasks.set t { task with outcome := some outcome } }
  match outcome with
  | .error _ => ended
  | .ok value =>
    { ended with self := { w.self with
        values := w.self.values.set task.key ⟨value, hexdigest value, t⟩
        deps := w.self.deps.set task.key task.deps
        metrics := { w.self.metrics with miss := w.self.metrics.miss + 1 } } }

def resume (i : ℕ) (call : Get ε) (outcome : Except ε Bytes) (interrupted : Option ε) : World ε :=
  match call.pc with
  | .owner task =>
    { w with
      self := { w.self with flights := w.self.flights.erase call.key }
      gets := w.gets.set i { call with pc := w.ends task (received interrupted outcome) } }
  | .waiter task => { w with gets := w.gets.set i { call with pc := w.ends task (received interrupted outcome) } }
  | .done _ _ _ => w

end World

def step (w : World ε) : Event ε → World ε
  | .get key deps => w.get key deps
  | .begin_ t => match w.tasks[t]? with
    | some task => if task.began = none ∧ task.outcome.isNone then w.begin_ t task else w
    | none => w
  | .finish t outcome => match w.tasks[t]? with
    -- a task that has not begun can be cancelled
    | some task => if task.outcome.isNone ∧ (task.began = none → outcome.isOk = false) then w.finish t task outcome else w
    | none => w
  | .resume i interrupted => match w.gets[i]? with
    | some call => match (call.pc.pending.bind (w.tasks[·]?)).bind Task.outcome with
      | some outcome => w.resume i call outcome interrupted
      | none => w
    | none => w
  | .invalidate changed => { w with
      self := (w.self.invalidate changed).1
      invalidations := w.invalidations ++ [changed] }

/-! ## Fresh values -/

/-- None of the paths was invalidated since `began`. -/
def Untouched (w : World ε) (began : ℕ) (deps : List PyStr) : Prop :=
  ∀ changed ∈ w.invalidations.drop began, ∀ p ∈ changed, p ∉ deps

/-- No call has returned a value whose computation began before an invalidation that came before the return, and that
changed a path which the call or the computation depends on. -/
def Fresh (w : World ε) : Prop :=
  ∀ c ∈ w.gets, ∀ t after value, c.pc = .done t after (.ok value) →
    ∃ task began, w.tasks[t]? = some task ∧ task.began = some began ∧
      ∀ changed ∈ (w.invalidations.take after).drop began, ∀ p ∈ changed, p ∉ c.deps ∧ p ∉ task.deps

/-- The paths that a call with the key depends on when it makes no task. -/
def recorded (w : World ε) (key : PyStr) : Option (List PyStr) :=
  match w.self.values.get? key with
  | some _ => some ((w.self.deps.get? key).getD [])
  | none => (w.self.flights.get? key).map fun t => (w.tasks[t]?.map Task.deps).getD []

/-- The call waits for a computation that has begun and depends on one of the paths. -/
def waitsFor (w : World ε) (changed : List PyStr) (c : Get ε) : Bool :=
  (c.pc.pending.bind (w.tasks[·]?)).any fun task => task.began.isSome && task.deps.any (· ∈ changed)

/-- The condition: a call that takes the value of another one depends on no more paths, and nothing is invalidated while a
call waits for a computation that depends on it. -/
def Quiet (w : World ε) : Event ε → Prop
  | .get key deps => (recorded w key).all (fun known => deps.all (· ∈ known)) = true
  | .invalidate changed => w.gets.all (fun c => !waitsFor w changed c) = true
  | _ => True

instance (w : World ε) (e : Event ε) : Decidable (Quiet w e) := by
  unfold Quiet
  split <;> infer_instance

/-! ## What holds in every state -/

variable {w w' : World ε} {e : Event ε} {t i began : ℕ} {task : Task ε} {c call : Get ε} {deps changed : List PyStr}
  {key : PyStr} {value : Bytes} {outcome : Except ε Bytes} {interrupted : Option ε}

/-- The task depends on the paths, and on nothing that was invalidated since it began. -/
def Covers (w : World ε) (t : ℕ) (deps : List PyStr) : Prop :=
  ∃ task, w.tasks[t]? = some task ∧ deps ⊆ task.deps ∧ ∀ began, task.began = some began → Untouched w began task.deps

/-- The call has returned no outdated value. -/
def FreshCall (w : World ε) (c : Get ε) : Prop :=
  ∀ t after outcome, c.pc = .done t after outcome → after ≤ w.invalidations.length ∧
    ∀ value, outcome = .ok value → ∃ task began, w.tasks[t]? = some task ∧ task.began = some began ∧
      ∀ changed ∈ (w.invalidations.take after).drop began, ∀ p ∈ changed, p ∉ c.deps ∧ p ∉ task.deps

/-- The invariant. -/
structure Known (w : World ε) : Prop where
  stored : ∀ k entry, w.self.values.get? k = some entry → ∃ task began, w.tasks[entry.task]? = some task ∧
    task.began = some began ∧ Untouched w began task.deps ∧ w.self.deps.get? k = some task.deps
  pending : ∀ c ∈ w.gets, ∀ t, c.pc.pending = some t → Covers w t c.deps
  /-- a flight is that of a call which waits for the task that it made -/
  flights : ∀ k t, w.self.flights.get? k = some t →
    ∃ (i : ℕ) (c : Get ε), w.gets[i]? = some c ∧ c.pc = .owner t ∧ c.key = k
  running : ∀ (t : ℕ) (task : Task ε), w.tasks[t]? = some task → task.outcome = none →
    ∃ (i : ℕ) (c : Get ε), w.gets[i]? = some c ∧ c.pc = .owner t
  began : ∀ (t : ℕ) (task : Task ε) (value : Bytes), w.tasks[t]? = some task → task.outcome = some (.ok value) →
    ∃ began, task.began = some began
  calls : ∀ c ∈ w.gets, FreshCall w c

theorem Known.fresh (h : Known w) : Fresh w := fun c mem t after value done => (h.calls c mem t after _ done).2 value rfl

theorem known_start : Known (World.start : World ε) := by
  refine ⟨fun k entry there => ?_, ?_, fun k t there => ?_, ?_, ?_, ?_⟩
  · simp [World.start] at there
  · simp [World.start]
  · simp [World.start] at there
  · simp [World.start]
  · simp [World.start]
  · simp [World.start]

/-- What a step leaves: the tasks with their dependencies and the begin of their computation, and what was invalidated. -/
structure Grows (w w' : World ε) : Prop where
  tasks : ∀ (t : ℕ) (task : Task ε), w.tasks[t]? = some task → ∃ task', w'.tasks[t]? = some task' ∧
    task'.deps = task.deps ∧ ∀ began, task.began = some began → task'.began = some began
  invalidations : w.invalidations <+: w'.invalidations

theorem FreshCall.mono (h : FreshCall w c) (grows : Grows w w') : FreshCall w' c := by
  intro t after outcome done
  obtain ⟨bound, fresh⟩ := h t after outcome done
  obtain ⟨later, invalidations⟩ := grows.invalidations
  refine ⟨?_, fun value ok => ?_⟩
  · rw [← invalidations, List.length_append]
    omega
  · obtain ⟨task, began, there, begins, fresh⟩ := fresh value ok
    obtain ⟨task', there', same, kept⟩ := grows.tasks t task there
    refine ⟨task', began, there', kept began begins, ?_⟩
    rw [← invalidations, List.take_append_of_le_length bound, same]
    exact fresh

theorem FreshCall.returns (h : Known w) (covers : Covers w t c.deps) (there : w.tasks[t]? = some task)
    (ended : task.outcome = some outcome) (done : c.pc = w.ends t (received interrupted outcome)) : FreshCall w c := by
  intro t' after out same
  rw [done] at same
  cases same
  refine ⟨le_rfl, fun value ok => ?_⟩
  obtain ⟨task', there', subset, untouched⟩ := covers
  cases there.symm.trans there'
  cases outcome with
  | error e => cases interrupted <;> cases ok
  | ok v =>
    obtain ⟨began, begins⟩ := h.began t task v there ended
    refine ⟨task, began, there, begins, fun changed mem p inside => ?_⟩
    rw [List.take_length] at mem
    have apart := untouched began begins changed mem p inside
    exact ⟨fun own => apart (subset own), apart⟩

/-! ## The beginning of a call -/

theorem Known.addGet (h : Known w) {pc : GetAt ε} (covers : ∀ t, pc.pending = some t → Covers w t deps)
    (fresh : FreshCall w ⟨key, deps, pc⟩) : Known (w.addGet key deps pc) where
  stored := h.stored
  pending c mem t waits := by
    rcases List.mem_append.1 mem with old | new
    · exact h.pending c old t waits
    · cases List.mem_singleton.1 new
      exact covers t waits
  flights k t there := by
    obtain ⟨i, c, here, owner, same⟩ := h.flights k t there
    exact ⟨i, c, (getElem?_append_one _ _ _).2 (.inl here), owner, same⟩
  running t task there runs := by
    obtain ⟨i, c, here, owner⟩ := h.running t task there runs
    exact ⟨i, c, (getElem?_append_one _ _ _).2 (.inl here), owner⟩
  began := h.began
  calls c mem := by
    rcases List.mem_append.1 mem with old | new
    · exact h.calls c old
    · cases List.mem_singleton.1 new
      exact fresh

theorem Known.count (h : Known w) (f : ContentMetrics → ContentMetrics) : Known (w.count f) :=
  ⟨h.stored, h.pending, h.flights, h.running, h.began, h.calls⟩

theorem Known.make (h : Known w) : Known (World.addGet
    { w with
      self := { w.self with flights := w.self.flights.set key w.tasks.length }
      tasks := w.tasks ++ [{ key := key, deps := deps }] } key deps (.owner w.tasks.length)) := by
  have old {t : ℕ} {task : Task ε} (there : w.tasks[t]? = some task) :
      (w.tasks ++ [{ key := key, deps := deps }])[t]? = some task := (getElem?_append_one _ _ _).2 (.inl there)
  have grows : ∀ (t : ℕ) (task : Task ε), w.tasks[t]? = some task →
      ∃ task', (w.tasks ++ [{ key := key, deps := deps }])[t]? = some task' ∧ task'.deps = task.deps ∧
        ∀ began, task.began = some began → task'.began = some began :=
    fun t task there => ⟨task, old there, rfl, fun _ begins => begins⟩
  refine ⟨fun k entry there => ?_, fun c mem t waits => ?_, fun k t there => ?_, fun t task there runs => ?_,
    fun t task value there ended => ?_, fun c mem => ?_⟩
  · obtain ⟨task, began, here, rest⟩ := h.stored k entry there
    exact ⟨task, began, old here, rest⟩
  · rcases List.mem_append.1 mem with mem | new
    · obtain ⟨task, there, rest⟩ := h.pending c mem t waits
      exact ⟨task, old there, rest⟩
    · cases List.mem_singleton.1 new
      cases waits
      exact ⟨_, (getElem?_append_one _ _ _).2 (.inr ⟨rfl, rfl⟩), List.Subset.refl _, fun _ absurd => by cases absurd⟩
  · have there : (w.self.flights.set key w.tasks.length).get? k = some t := there
    rw [Dict.get?_set] at there
    split at there
    · rename_i same
      cases there
      exact ⟨_, _, (getElem?_append_one _ _ _).2 (.inr ⟨rfl, rfl⟩), rfl, same.symm⟩
    · obtain ⟨i, c, here, rest⟩ := h.flights k t there
      exact ⟨i, c, (getElem?_append_one _ _ _).2 (.inl here), rest⟩
  · rcases (getElem?_append_one _ _ _).1 there with there | ⟨rfl, rfl⟩
    · obtain ⟨i, c, here, owner⟩ := h.running t task there runs
      exact ⟨i, c, (getElem?_append_one _ _ _).2 (.inl here), owner⟩
    · exact ⟨_, _, (getElem?_append_one _ _ _).2 (.inr ⟨rfl, rfl⟩), rfl⟩
  · rcases (getElem?_append_one _ _ _).1 there with there | ⟨rfl, rfl⟩
    · exact h.began t task value there ended
    · cases ended
  · rcases List.mem_append.1 mem with mem | new
    · exact (h.calls c mem).mono ⟨grows, List.prefix_refl _⟩
    · cases List.mem_singleton.1 new
      intro t after outcome absurd
      cases absurd

theorem Known.get (h : Known w) (quiet : Quiet w (.get key deps)) : Known (w.get key deps) := by
  have quiet : (recorded w key).all (fun known => deps.all (· ∈ known)) = true := quiet
  unfold recorded at quiet
  unfold World.get
  cases there : w.self.values.get? key with
  | some entry =>
    obtain ⟨task, began, made, begins, untouched, same⟩ := h.stored key entry there
    rw [there, same] at quiet
    have subset : ∀ p ∈ deps, p ∈ task.deps := fun p mem => of_decide_eq_true (List.all_eq_true.1 quiet p mem)
    have known : FreshCall w ⟨key, deps, w.ends entry.task (.ok entry.value)⟩ := by
      rintro t after outcome ⟨⟩
      refine ⟨le_rfl, fun value ok => ⟨task, began, made, begins, fun changed mem p inside => ?_⟩⟩
      rw [List.take_length] at mem
      have apart := untouched changed mem p inside
      exact ⟨fun own => apart (subset p own), apart⟩
    dsimp only
    split
    · refine h.addGet (fun t absurd => by cases absurd) ?_
      rintro t after outcome ⟨⟩
      exact ⟨le_rfl, fun value absurd => by cases absurd⟩
    · exact (h.count _).addGet (fun t absurd => by cases absurd) known
  | none =>
    rw [there] at quiet
    dsimp only
    cases flight : w.self.flights.get? key with
    | none => exact h.make
    | some t =>
      obtain ⟨i, owner, here, waits, -⟩ := h.flights key t flight
      obtain ⟨task, made, -, untouched⟩ := h.pending owner (List.mem_of_getElem? here) t (by rw [waits]; rfl)
      rw [flight] at quiet
      simp only [made, Option.map_some, Option.getD_some, Option.all_some] at quiet
      have subset : deps ⊆ task.deps := fun p mem => of_decide_eq_true (List.all_eq_true.1 quiet p mem)
      have covers : Covers w t deps := ⟨task, made, subset, untouched⟩
      dsimp only
      rw [made, Option.bind_some]
      cases ended : task.outcome with
      | none =>
        refine (h.count _).addGet (fun t' same => ?_) fun t' after outcome absurd => by cases absurd
        cases same
        exact covers
      | some outcome =>
        refine (h.count _).addGet (fun t' absurd => by cases absurd) ?_
        exact FreshCall.returns (w := w.count _) (h.count _) covers made ended rfl

/-! ## The steps of a task -/

theorem Known.setTask (h : Known w) (there : w.tasks[t]? = some task) {task' : Task ε} (same : task'.deps = task.deps)
    (kept : ∀ began, task.began = some began → task'.began = some began)
    (begins : ∀ began, task'.began = some began → task.began = some began ∨ began = w.invalidations.length)
    (runs : task'.outcome = none → task.outcome = none)
    (ended : ∀ value, task'.outcome = some (.ok value) → ∃ began, task'.began = some began) :
    Known { w with tasks := w.tasks.set t task' } := by
  have at_ (t' : ℕ) (task₀ : Task ε) (here : w.tasks[t']? = some task₀) :
      t' = t ∧ task₀ = task ∧ (w.tasks.set t task')[t']? = some task' ∨ (w.tasks.set t task')[t']? = some task₀ := by
    rw [getElem?_set_of_some _ there]
    split
    · rename_i equal
      subst equal
      exact .inl ⟨rfl, Option.some.inj (here.symm.trans there), rfl⟩
    · exact .inr here
  have grows : Grows w { w with tasks := w.tasks.set t task' } := by
    refine ⟨fun t' task₀ here => ?_, List.prefix_refl _⟩
    rcases at_ t' task₀ here with ⟨-, rfl, now⟩ | now
    · exact ⟨task', now, same, kept⟩
    · exact ⟨task₀, now, rfl, fun _ begins => begins⟩
  refine ⟨fun k entry stored => ?_, fun c mem t' waits => ?_, h.flights, fun t' task₀ here none => ?_,
    fun t' task₀ value here ok => ?_, fun c mem => (h.calls c mem).mono grows⟩
  · obtain ⟨task₀, began, here, begun, untouched, deps⟩ := h.stored k entry stored
    rcases at_ _ task₀ here with ⟨-, rfl, now⟩ | now
    · exact ⟨task', began, now, kept began begun, by rwa [same], by rwa [same]⟩
    · exact ⟨task₀, began, now, begun, untouched, deps⟩
  · obtain ⟨task₀, here, subset, untouched⟩ := h.pending c mem t' waits
    rcases at_ t' task₀ here with ⟨-, rfl, now⟩ | now
    · refine ⟨task', now, by rwa [same], fun began begun => ?_⟩
      rw [same]
      rcases begins began begun with before | rfl
      · exact untouched began before
      · intro changed mem
        rw [List.drop_length] at mem
        cases mem
    · exact ⟨task₀, now, subset, untouched⟩
  · have here : (w.tasks.set t task')[t']? = some task₀ := here
    rw [getElem?_set_of_some _ there] at here
    split at here
    · rename_i equal
      cases here
      rw [equal]
      exact h.running t task there (runs none)
    · exact h.running t' task₀ here none
  · have here : (w.tasks.set t task')[t']? = some task₀ := here
    rw [getElem?_set_of_some _ there] at here
    split at here
    · cases here
      exact ended value ok
    · exact h.began t' task₀ value here ok

theorem Known.begin_ (h : Known w) (there : w.tasks[t]? = some task) (fresh : task.began = none)
    (runs : task.outcome = none) : Known (w.begin_ t task) := by
  refine h.setTask there rfl (fun began absurd => ?_) (fun began same => ?_) (fun _ => runs) fun value ok => ⟨_, rfl⟩
  · rw [fresh] at absurd
    cases absurd
  · cases same
    exact .inr rfl

theorem Known.finish (h : Known w) (there : w.tasks[t]? = some task) (runs : task.outcome = none)
    (begun : task.began = none → outcome.isOk = false) : Known (w.finish t task outcome) := by
  have ended : Known { w with tasks := w.tasks.set t { task with outcome := some outcome } } := by
    refine h.setTask there rfl (fun _ begins => begins) (fun _ begins => .inl begins) (fun _ => runs) fun value ok => ?_
    cases ok
    refine Option.ne_none_iff_exists'.1 fun none => ?_
    cases begun none
  cases outcome with
  | error e => exact ended
  | ok value =>
    obtain ⟨i, c, here, owner⟩ := h.running t task there runs
    obtain ⟨task', there', -, untouched⟩ := h.pending c (List.mem_of_getElem? here) t (by rw [owner]; rfl)
    cases there.symm.trans there'
    obtain ⟨began, begins⟩ := Option.ne_none_iff_exists'.1 fun none => by cases begun none
    refine ⟨fun k entry stored => ?_, ended.pending, ended.flights, ended.running, ended.began, ended.calls⟩
    have stored : (w.self.values.set task.key ⟨value, hexdigest value, t⟩).get? k = some entry := stored
    show ∃ (task' : Task ε) (began : ℕ), _ ∧ _ ∧ _ ∧ (w.self.deps.set task.key task.deps).get? k = some task'.deps
    rw [Dict.get?_set] at stored ⊢
    split at stored
    · rename_i same
      cases stored
      refine ⟨{ task with outcome := some (.ok value) }, began, ?_, begins, untouched began begins, by rw [if_pos same]⟩
      exact (getElem?_set_of_some _ there t).trans (if_pos rfl)
    · rename_i other
      rw [if_neg other]
      exact ended.stored k entry stored

/-! ## The end of a call -/

theorem Known.resume (h : Known w) (here : w.gets[i]? = some call) (waits : call.pc.pending = some t)
    (there : w.tasks[t]? = some task) (ended : task.outcome = some outcome) :
    Known (w.resume i call outcome interrupted) := by
  have covers := h.pending call (List.mem_of_getElem? here) t waits
  -- the calls after the step, for any change of the flights that leaves those of other calls
  have moved (flights : Dict PyStr ℕ) (kept : ∀ k t', flights.get? k = some t' → w.self.flights.get? k = some t' ∧
        ∀ c, w.gets[i]? = some c → c.pc = .owner t' → c.key ≠ k) :
      Known { w with
        self := { w.self with flights := flights }
        gets := w.gets.set i { call with pc := w.ends t (received interrupted outcome) } } := by
    refine ⟨h.stored, fun c mem t' pending => ?_, fun k t' flight => ?_, fun t' task' made none => ?_, h.began,
      fun c mem => ?_⟩
    · rcases List.mem_or_eq_of_mem_set mem with mem | rfl
      · exact h.pending c mem t' pending
      · cases pending
    · obtain ⟨flight, other⟩ := kept k t' flight
      obtain ⟨j, c, at_, owner, same⟩ := h.flights k t' flight
      refine ⟨j, c, ?_, owner, same⟩
      refine (getElem?_set_of_some _ here j).trans ?_
      rw [if_neg]
      · exact at_
      · rintro rfl
        exact other c at_ owner same
    · obtain ⟨j, c, at_, owner⟩ := h.running t' task' made none
      refine ⟨j, c, ?_, owner⟩
      refine (getElem?_set_of_some _ here j).trans ?_
      rw [if_neg]
      · exact at_
      · rintro rfl
        cases at_.symm.trans here
        rw [owner] at waits
        cases waits
        cases there.symm.trans made
        rw [ended] at none
        cases none
    · rcases List.mem_or_eq_of_mem_set mem with mem | rfl
      · exact h.calls c mem
      · have fresh : FreshCall w { call with pc := w.ends t (received interrupted outcome) } :=
          FreshCall.returns h covers there ended rfl
        exact fresh
  unfold World.resume
  split
  · rename_i task₀ owner
    rw [owner] at waits
    cases waits
    refine moved _ fun k t' flight => ?_
    rw [Dict.get?_erase] at flight
    split at flight
    · cases flight
    · rename_i other
      refine ⟨flight, fun c same _ equal => other ?_⟩
      cases here.symm.trans same
      exact equal.symm
  · rename_i task₀ waiter
    rw [waiter] at waits
    cases waits
    refine moved w.self.flights fun k t' flight => ⟨flight, fun c same owner => ?_⟩
    cases here.symm.trans same
    rw [waiter] at owner
    cases owner
  · exact h

/-! ## Invalidation -/

theorem mem_doomed {deps : Dict PyStr (List PyStr)} {k : PyStr} {listed : List PyStr}
    (there : deps.get? k = some listed) :
    k ∈ (deps.entries.filter fun e => e.2.any (· ∈ changed)).map Prod.fst ↔ ∃ p ∈ changed, p ∈ listed := by
  rw [List.mem_map]
  constructor
  · rintro ⟨⟨k', listed'⟩, mem, rfl⟩
    obtain ⟨mem, meets⟩ := List.mem_filter.1 mem
    cases ((Dict.get?_eq_some_iff _ _ _).2 mem).symm.trans there
    obtain ⟨p, inside, changed⟩ := List.any_eq_true.1 meets
    exact ⟨p, of_decide_eq_true changed, inside⟩
  · rintro ⟨p, changed, inside⟩
    refine ⟨(k, listed), List.mem_filter.2 ⟨(Dict.get?_eq_some_iff _ _ _).1 there, ?_⟩, rfl⟩
    exact List.any_eq_true.2 ⟨p, inside, decide_eq_true changed⟩

theorem untouched_invalidate (h : Untouched w began deps) (apart : ∀ p ∈ changed, p ∉ deps) {self : ContentCache} :
    Untouched { w with self := self, invalidations := w.invalidations ++ [changed] } began deps := by
  intro changed' mem
  have mem : changed' ∈ (w.invalidations ++ [changed]).drop began := mem
  rw [List.drop_append, List.mem_append] at mem
  rcases mem with before | last
  · exact h changed' before
  · cases List.mem_singleton.1 (List.mem_of_mem_drop last)
    exact apart

theorem Known.invalidate (h : Known w) (quiet : Quiet w (.invalidate changed)) :
    Known { w with self := (w.self.invalidate changed).1, invalidations := w.invalidations ++ [changed] } := by
  refine ⟨fun k entry stored => ?_, fun c mem t waits => ?_, h.flights, h.running, h.began, fun c mem =>
    (h.calls c mem).mono ⟨fun t task there => ⟨task, there, rfl, fun _ begins => begins⟩, List.prefix_append _ _⟩⟩
  · have stored : (List.foldl Dict.erase w.self.values _).get? k = some entry := stored
    show ∃ (task : Task ε) (began : ℕ), _ ∧ _ ∧ _ ∧ (List.foldl Dict.erase w.self.deps _).get? k = some task.deps
    rw [Dict.get?_foldl_erase] at stored ⊢
    split at stored
    · cases stored
    · rename_i spared
      obtain ⟨task, began, there, begins, untouched, deps⟩ := h.stored k entry stored
      refine ⟨task, began, there, begins, untouched_invalidate untouched fun p inside own => ?_, ?_⟩
      · exact spared ((mem_doomed deps).2 ⟨p, inside, own⟩)
      · rw [if_neg spared, deps]
  · obtain ⟨task, there, subset, untouched⟩ := h.pending c mem t waits
    refine ⟨task, there, subset, fun began begins => untouched_invalidate (untouched began begins) fun p inside own => ?_⟩
    have apart := List.all_eq_true.1 quiet c mem
    unfold waitsFor at apart
    rw [waits, Option.bind_some, there, Option.any_some, begins, Option.isSome_some, Bool.true_and,
      Bool.not_eq_true', List.any_eq_false] at apart
    exact apart p own (decide_eq_true inside)

/-! ## Runs -/

theorem Known.step (h : Known w) (quiet : Quiet w e) : Known (step w e) := by
  cases e with
  | get key deps => exact h.get quiet
  | begin_ t =>
    unfold ContentCache.step
    dsimp only
    split
    · rename_i task there
      split
      · rename_i may
        exact h.begin_ there may.1 (Option.isNone_iff_eq_none.1 may.2)
      · exact h
    · exact h
  | finish t outcome =>
    unfold ContentCache.step
    dsimp only
    split
    · rename_i task there
      split
      · rename_i may
        exact h.finish there (Option.isNone_iff_eq_none.1 may.1) may.2
      · exact h
    · exact h
  | resume i interrupted =>
    unfold ContentCache.step
    dsimp only
    split
    · rename_i call here
      split
      · rename_i outcome ended
        obtain ⟨task, made, ended⟩ := Option.bind_eq_some_iff.1 ended
        obtain ⟨t, waits, made⟩ := Option.bind_eq_some_iff.1 made
        exact h.resume here waits made ended
      · exact h
    · exact h
  | invalidate changed => exact h.invalidate quiet

/-- In every run that invalidates nothing which a computation in the air depends on, no call returns an outdated
value. -/
theorem fresh_of_quiet {events : List (Event ε)} (quiet : Machine.Along step Quiet (World.start : World ε) events) :
    Fresh (Machine.run step World.start events) :=
  (quiet.run_invariant known_start fun _ _ h next => h.step next).fresh

/-- A value is invalidated between two computations of it. -/
theorem fresh_of_quiet_sample :
    Fresh (Machine.run step (World.start : World PyStr)
      [.get "k" ["p"], .begin_ 0, .finish 0 (.ok [1]), .resume 0 none, .invalidate ["p"], .get "k" ["p"], .begin_ 1,
        .finish 1 (.ok [2]), .resume 1 none, .get "k" ["p"]]) :=
  fresh_of_quiet (by decide +kernel)

/-- A value is invalidated while it is computed, and a call after that returns it. -/
theorem not_fresh : ¬ ∀ events : List (Event PyStr), Fresh (Machine.run step World.start events) := by
  intro fresh
  have outdated := fresh [.get "k" ["p"], .begin_ 0, .invalidate ["p"], .finish 0 (.ok [1]), .resume 0 none, .get "k" ["p"]]
  generalize reached : Machine.run step World.start _ = w at outdated
  have call : w.gets[1]?.map (fun c => (c.deps, c.pc)) = some ((["p"] : List PyStr), .done 0 1 (.ok [1])) := by
    rw [← reached]
    decide +kernel
  have rest : w.tasks[0]?.map Task.began = some (some 0) ∧ w.invalidations = [(["p"] : List PyStr)] := by
    rw [← reached]
    decide +kernel
  obtain ⟨c, here, same⟩ := Option.map_eq_some_iff.1 call
  obtain ⟨deps, done⟩ := Prod.mk.inj same
  obtain ⟨task, began, there, begins, apart⟩ := outdated c (List.mem_of_getElem? here) 0 1 [1] done
  rw [there] at rest
  obtain rfl : began = 0 := Option.some.inj (begins.symm.trans (Option.some.inj rest.1))
  rw [rest.2, deps] at apart
  exact (apart _ (List.mem_singleton_self _) "p" (List.mem_singleton_self _)).1 (List.mem_singleton_self _)

end ContentCache

end SimplicioFast
