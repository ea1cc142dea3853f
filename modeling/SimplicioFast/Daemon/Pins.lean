import Mathlib.Data.List.Count
import SimplicioFast.Daemon.Steps

/-!
# The pins of the generations

The requests of a generation that is not pinned wait for one opening task, and each of them takes the entry of the
generation out of the table of openings when it goes on.  That entry may be a newer task by then.  In a run in which
it never is a task that still runs, no pin is written over another, the pin of an opening is taken by one of those who
wait for it, and one shutdown runs at a time with a closer that returns, at most one opening of a generation runs at
once and every pin is closed once (`singleFlight_of_orderly`).
-/

namespace SimplicioFast

open Daemon Machine

namespace ResidentFastDaemon

variable {cfg : Config} {d d' : ResidentFastDaemon} {w t g : ℕ} {e : Entry} {x y : Worker}

/-! ## What the law is about -/

def generation? (d : ResidentFastDaemon) (t : ℕ) : Option ℕ := (d.tasks[t]?).map OpenTask.generation

def Runs (d : ResidentFastDaemon) (t : ℕ) : Prop := t < d.tasks.length ∧ d.outcome? t = none

def Awaited (d : ResidentFastDaemon) (t : ℕ) : Prop := ∃ (w : ℕ) (e : Entry) (must : Bool),
  d.workers[w]? = some (.waiting e t must)

/-- The pins that are to be closed by the shutdown that runs, or by the next one. -/
def kept (d : ResidentFastDaemon) : List Pin :=
  match d.shutdowns with
  | [.closing rest] => rest
  | _ => d.pins.values

/-- What a worker sees of the opening that it has waited for, when it was not cancelled itself. -/
def sight? (cfg : Config) (d : ResidentFastDaemon) : Event → Option (ℕ × OpenOutcome)
  | .take w => (d.passes? cfg w).map fun r => (r.task, r.outcome)
  | .wake w =>
    match d.workers[w]? with
    | some (.waiting _ t false) => (d.outcome? t).map fun o => (t, o)
    | _ => none
  | _ => none

end ResidentFastDaemon

namespace Daemon

/-- A daemon, and what its workers saw of the openings. -/
structure Opened where
  daemon : ResidentFastDaemon := {}
  sights : List (ℕ × OpenOutcome) := []

namespace Opened

open ResidentFastDaemon

/-- A step of the daemon, and what a worker sees in it. -/
def step (cfg : Config) (s : Opened) (event : Event) : Opened where
  daemon := s.daemon.step cfg event
  sights := s.sights ++ (s.daemon.sight? cfg event).toList

/-- Openings are single-flight, and pins are closed once. -/
structure SingleFlight (cfg : Config) (s : Opened) : Prop where
  /-- At most one opening of a generation runs. -/
  single : ∀ t t', s.daemon.Runs t → s.daemon.Runs t' → s.daemon.generation? t = s.daemon.generation? t' → t = t'
  /-- All who have waited for an opening have seen the same. -/
  agree : ∀ a ∈ s.sights, ∀ b ∈ s.sights, a.1 = b.1 → a.2 = b.2
  /-- No pin is closed twice. -/
  atMostOnce : ∀ t, s.daemon.closed.count (.opened t) ≤ 1
  /-- A stopped daemon has closed every pin that was opened. -/
  closed : cfg.hasCloser = true → s.daemon.mode = .stopped → ∀ t, s.daemon.outcome? t = some .pin →
    s.daemon.closed.count (.opened t) = 1

end Opened

end Daemon

namespace ResidentFastDaemon

variable {cfg : Config} {d d' : ResidentFastDaemon} {w t g : ℕ} {e : Entry} {x y : Worker}

/-- A worker goes on behind an opening without harm: the task that it takes out of the table does not run, the pin
that it writes is the only one, and a pin that it does not take is stored or left to another one. -/
structure Harmless (d : ResidentFastDaemon) (r : Resumption) : Prop where
  removes : ∀ t, d.opening.get? r.entry.request.generation = some t → t ≠ r.task → d.outcome? t ≠ none
  writes : r.outcome = .pin → d.pins.get? r.entry.request.generation = none ∨
    d.pins.get? r.entry.request.generation = some (.opened r.task)
  leaves : r.outcome = .cancelled → d.outcome? r.task = some .pin →
    d.pins.get? r.entry.request.generation = some (.opened r.task) ∨
      ∃ (v : ℕ) (e : Entry) (must : Bool), v ≠ r.worker ∧ d.workers[v]? = some (.waiting e r.task must)

/-- Workers go on behind openings without harm, one shutdown runs at a time, the closer returns, and nothing
crashes. -/
def Orderly (cfg : Config) (d : ResidentFastDaemon) : Event → Prop
  | .take w => ∀ r, d.passes? cfg w = some r → d.Harmless r
  | .wake w => ∀ r, d.wakes? w = some r → d.Harmless r
  | .shutdown _ => d.shutdowns = []
  | .close i returns => ∀ p rest, d.shutdowns[i]? = some (.closing (p :: rest)) → returns = true
  | .crash => False
  | _ => True

/-! ## The invariant -/

def AtPhase (d : ResidentFastDaemon) : List Phase → Prop
  | [] => True
  | [.draining] => d.mode = .draining
  | [.gathering ws] => d.mode = .draining ∧ ws = d.crew
  | [.closing rest] => d.mode = .draining ∧ (∀ x ∈ d.workers, x.isAlive = false) ∧ ∀ p ∈ rest, p ∈ d.pins.values
  | _ => False

/-- The invariant of an orderly run. -/
structure Pinned (cfg : Config) (d : ResidentFastDaemon) : Prop where
  registered : ∀ t g, d.Runs t → d.generation? t = some g → d.opening.get? g = some t
  awaited : ∀ g t, d.opening.get? g = some t → d.generation? t = some g ∧ d.Awaited t
  waiting : ∀ (w : ℕ) (e : Entry) (t : ℕ) (must : Bool), d.workers[w]? = some (.waiting e t must) →
    d.generation? t = some e.request.generation ∧ .opened t ∉ d.closed
  stored : ∀ g t, d.pins.get? g = some (.opened t) → d.generation? t = some g ∧ d.outcome? t = some .pin
  ended : ∀ t, .opened t ∈ d.closed → d.outcome? t = some .pin
  once : ∀ t, d.closed.count (.opened t) + d.kept.count (.opened t) ≤ 1
  found : cfg.hasCloser = true → ∀ t, d.outcome? t = some .pin → .opened t ∈ d.closed ∨ .opened t ∈ d.kept ∨ d.Awaited t
  crew : ∀ (w : ℕ) (x : Worker), d.workers[w]? = some x → x.isAlive = true → w ∈ d.crew
  phase : d.AtPhase d.shutdowns
  ready : d.mode = .ready → d.shutdowns = []
  stopped : d.mode = .stopped → d.shutdowns = [] ∧ d.pins.values = [] ∧ ∀ x ∈ d.workers, x.isAlive = false
  crashed : d.mode ≠ .crashed ∧ d.crashes = []

namespace Pinned

theorem congr (h : Pinned cfg d) (epoch accepted completed cancelled unfinished : ℕ) (queue submitters : List Entry)
    (futures : List FutureState) (active : Dict PyStr ℕ) (terminal : Dict PyStr Json) :
    Pinned cfg { d with
      epoch := epoch, accepted := accepted, completed := completed, cancelled := cancelled, unfinished := unfinished
      queue := queue, submitters := submitters, futures := futures, active := active, terminal := terminal } where
  registered := h.registered
  awaited := h.awaited
  waiting := h.waiting
  stored := h.stored
  ended := h.ended
  once := h.once
  found := h.found
  crew := h.crew
  phase := by
    have at_ : d.AtPhase d.shutdowns := h.phase
    show AtPhase _ d.shutdowns
    generalize d.shutdowns = phases at at_ ⊢
    rcases phases with _ | ⟨_ | _ | _, _ | _⟩ <;> exact at_
  ready := h.ready
  stopped := h.stopped
  crashed := h.crashed

theorem kept_of_alive (h : Pinned cfg d) (there : d.workers[w]? = some x) (alive : x.isAlive = true) :
    d.kept = d.pins.values := by
  have at_ := h.phase
  unfold kept
  split
  · rename_i rest closing
    rw [closing] at at_
    have := at_.2.1 x (List.mem_of_getElem? there)
    rw [alive] at this
    cases this
  · rfl

theorem phase_of_alive (h : Pinned cfg d) (there : d.workers[w]? = some x) (alive : x.isAlive = true)
    (mode : d'.mode = d.mode) (crew : d'.crew = d.crew) (shutdowns : d'.shutdowns = d.shutdowns) :
    d'.AtPhase d'.shutdowns := by
  have at_ := h.phase
  rw [shutdowns]
  generalize d.shutdowns = phases at at_ ⊢
  rcases phases with _ | ⟨_ | ws | rest, _ | _⟩
  · trivial
  · exact mode.trans at_
  · exact at_
  · exact ⟨mode.trans at_.1, at_.2.trans crew.symm⟩
  · exact at_
  · have := at_.2.1 x (List.mem_of_getElem? there)
    rw [alive] at this
    cases this
  · exact at_

theorem put (h : Pinned cfg d) (there : d.workers[w]? = some x) (alive : x.isAlive = true)
    (old : ∀ e t must, x = .waiting e t must → ∃ e' must', y = .waiting e' t must')
    (new : ∀ e t must, y = .waiting e t must → d.generation? t = some e.request.generation ∧ .opened t ∉ d.closed) :
    Pinned cfg { d with workers := d.workers.set w y } := by
  have slot := lt_of_worker there
  have still (t : ℕ) (awaited : d.Awaited t) : Awaited { d with workers := d.workers.set w y } t := by
    obtain ⟨v, e, must, waits⟩ := awaited
    by_cases same : v = w
    · subst same
      obtain ⟨e', must', rfl⟩ := old e t must (Option.some.inj (there.symm.trans waits))
      refine ⟨v, e', must', ?_⟩
      show (d.workers.set v _)[v]? = _
      rw [getElem?_set_worker slot, if_pos rfl]
    · refine ⟨v, e, must, ?_⟩
      show (d.workers.set w _)[v]? = _
      rw [getElem?_set_worker slot, if_neg same]
      exact waits
  refine ⟨h.registered, fun g t found => ⟨(h.awaited g t found).1, still t (h.awaited g t found).2⟩, ?_, h.stored,
    h.ended, h.once, ?_, ?_, h.phase_of_alive there alive rfl rfl rfl, h.ready, ?_, h.crashed⟩
  · intro v e t must waits
    have waits : (d.workers.set w y)[v]? = some (.waiting e t must) := waits
    rw [getElem?_set_worker slot] at waits
    split_ifs at waits with same
    · exact new e t must (Option.some.inj waits)
    · exact h.waiting v e t must waits
  · intro closer t pin
    exact (h.found closer t pin).imp_right (Or.imp_right (still t))
  · intro v z there' alive'
    have there' : (d.workers.set w y)[v]? = some z := there'
    rw [getElem?_set_worker slot] at there'
    split_ifs at there' with same
    · rw [same]
      exact h.crew w x there alive
    · exact h.crew v z there' alive'
  · intro off
    have := (h.stopped off).2.2 x (List.mem_of_getElem? there)
    rw [alive] at this
    cases this

theorem swap (h : Pinned cfg d) (there : d.workers[w]? = some x) (alive : x.isAlive = true)
    (busy : ∀ e t must, x ≠ .waiting e t must) (next : ∀ e t must, y ≠ .waiting e t must) :
    Pinned cfg { d with workers := d.workers.set w y } :=
  h.put there alive (fun e t must same => absurd same (busy e t must))
    fun e t must same => absurd same (next e t must)

theorem storePin {p : Pin} (h : Pinned cfg d) (there : d.workers[w]? = some x) (alive : x.isAlive = true)
    (absent : d.pins.get? g = none) (new : ∀ t, p = .opened t →
      d.generation? t = some g ∧ d.outcome? t = some .pin ∧ .opened t ∉ d.closed) :
    Pinned cfg { d with pins := d.pins.set g p } := by
  -- The pin comes at the end of the table.
  have values : (d.pins.set g p).values = d.pins.values ++ [p] := by
    show (Dict.setEntries _ _ d.pins.entries).map Prod.snd = _
    rw [Dict.setEntries_of_notMem _ ((Dict.get?_eq_none_iff d.pins g).1 absent), List.map_append]
    rfl
  have kept := h.kept_of_alive there alive
  have kept' : ResidentFastDaemon.kept { d with pins := d.pins.set g p } = d.pins.values ++ [p] := by
    have at_ := h.phase
    rw [← values]
    unfold ResidentFastDaemon.kept
    split
    · rename_i rest closing
      have closing : d.shutdowns = [.closing rest] := closing
      rw [closing] at at_
      have := at_.2.1 x (List.mem_of_getElem? there)
      rw [alive] at this
      cases this
    · rfl
  refine ⟨h.registered, h.awaited, h.waiting, ?_, h.ended, ?_, ?_, h.crew, ?_, h.ready, ?_, h.crashed⟩
  · intro g' t found
    have found : (d.pins.set g p).get? g' = some (.opened t) := found
    rw [Dict.get?_set] at found
    split_ifs at found with same
    · obtain ⟨opens, pin, -⟩ := new t (Option.some.inj found)
      rw [same]
      exact ⟨opens, pin⟩
    · exact h.stored g' t found
  · intro t
    have once := h.once t
    show d.closed.count (.opened t) + (ResidentFastDaemon.kept _).count _ ≤ 1
    rw [kept] at once
    rw [kept', List.count_append, List.count_singleton]
    by_cases same : p = .opened t
    · obtain ⟨opens, -, unclosed⟩ := new t same
      have unstored : .opened t ∉ d.pins.values := by
        intro mem
        obtain ⟨g', found⟩ := (Dict.mem_values_iff _ _).1 mem
        obtain ⟨other, -⟩ := h.stored g' t found
        rw [opens] at other
        obtain rfl := Option.some.inj other
        rw [absent] at found
        cases found
      rw [List.count_eq_zero.2 unclosed, List.count_eq_zero.2 unstored, if_pos (by simp [same])]
    · rw [if_neg (by simpa using same)]
      exact once
  · intro closer t ended
    refine (h.found closer t ended).imp_right (Or.imp_left fun mem => ?_)
    rw [kept']
    rw [kept] at mem
    exact List.mem_append.2 (.inl mem)
  · exact h.phase_of_alive there alive rfl rfl rfl
  · intro off
    have := (h.stopped off).2.2 x (List.mem_of_getElem? there)
    rw [alive] at this
    cases this

theorem store {must : Bool} (h : Pinned cfg d) (waits : d.workers[w]? = some (.waiting e t must))
    (pin : d.outcome? t = some .pin) (free : d.pins.get? e.request.generation = none ∨
      d.pins.get? e.request.generation = some (.opened t)) :
    Pinned cfg { d with pins := d.pins.set e.request.generation (.opened t) } := by
  rcases free with absent | there
  · refine h.storePin waits rfl absent fun t' same => ?_
    obtain rfl := Pin.opened.inj same
    obtain ⟨opens, unclosed⟩ := h.waiting w e t must waits
    exact ⟨opens, pin, unclosed⟩
  · rw [Dict.set_eq_self there]
    exact h

theorem leave {must : Bool} (h : Pinned cfg d) (waits : d.workers[w]? = some (.waiting e t must))
    (ended : d.outcome? t ≠ none)
    (removes : ∀ t', d.opening.get? e.request.generation = some t' → t' ≠ t → d.outcome? t' ≠ none)
    (leaves : d.outcome? t = some .pin → .opened t ∈ d.pins.values ∨
      ∃ (v : ℕ) (e : Entry) (must : Bool), v ≠ w ∧ d.workers[v]? = some (.waiting e t must))
    (next : ∀ e t must, y ≠ .waiting e t must) :
    Pinned cfg { d with opening := d.opening.erase e.request.generation, workers := d.workers.set w y } := by
  have slot := lt_of_worker waits
  have opens := (h.waiting w e t must waits).1
  have still {v : ℕ} {e' : Entry} {t' : ℕ} {must' : Bool} (there : d.workers[v]? = some (.waiting e' t' must'))
      (other : v ≠ w) : (d.workers.set w y)[v]? = some (.waiting e' t' must') := by
    rw [getElem?_set_worker slot, if_neg other]
    exact there
  refine ⟨?_, ?_, ?_, h.stored, h.ended, h.once, ?_, ?_, h.phase_of_alive waits rfl rfl rfl rfl, h.ready, ?_,
    h.crashed⟩
  · intro t' g runs gen
    have found : d.opening.get? g = some t' := h.registered t' g runs gen
    show (d.opening.erase e.request.generation).get? g = _
    rw [Dict.get?_erase, if_neg]
    · exact found
    · -- What is taken out of the table does not run.
      rintro rfl
      by_cases same : t' = t
      · subst same
        exact ended runs.2
      · exact removes t' found same runs.2
  · intro g t' found
    have found : (d.opening.erase e.request.generation).get? g = some t' := found
    rw [Dict.get?_erase] at found
    split_ifs at found with same
    obtain ⟨gen, v, e', must', there⟩ := h.awaited g t' found
    refine ⟨gen, v, e', must', still there ?_⟩
    rintro rfl
    rw [waits] at there
    obtain ⟨-, rfl, -⟩ := Worker.waiting.inj (Option.some.inj there)
    exact same (Option.some.inj (gen.symm.trans opens))
  · intro v e' t' must' there
    have there : (d.workers.set w y)[v]? = some (.waiting e' t' must') := there
    rw [getElem?_set_worker slot] at there
    split_ifs at there with same
    · exact absurd (Option.some.inj there) (next e' t' must')
    · exact h.waiting v e' t' must' there
  · intro closer t' pin
    rcases h.found closer t' pin with closed | kept | ⟨v, e', must', there⟩
    · exact .inl closed
    · exact .inr (.inl kept)
    · by_cases same : v = w
      · subst same
        rw [waits] at there
        obtain ⟨-, rfl, -⟩ := Worker.waiting.inj (Option.some.inj there)
        rcases leaves pin with mem | ⟨u, e'', must'', other, there⟩
        · refine .inr (.inl ?_)
          show _ ∈ d.kept
          rw [h.kept_of_alive waits rfl]
          exact mem
        · exact .inr (.inr ⟨u, e'', must'', still there other⟩)
      · exact .inr (.inr ⟨v, e', must', still there same⟩)
  · intro v z there alive
    have there : (d.workers.set w y)[v]? = some z := there
    rw [getElem?_set_worker slot] at there
    split_ifs at there with same
    · rw [same]
      exact h.crew w _ waits rfl
    · exact h.crew v z there alive
  · intro off
    have := (h.stopped off).2.2 _ (List.mem_of_getElem? waits)
    cases this

theorem launch (h : Pinned cfg d) (idle : d.workers[w]? = some .idle)
    (free : d.opening.get? e.request.generation = none) : Pinned cfg (d.launch w e) := by
  have slot := lt_of_worker idle
  have old {t : ℕ} (inside : t < d.tasks.length) : (d.launch w e).tasks[t]? = d.tasks[t]? :=
    List.getElem?_append_left inside
  have new : (d.launch w e).tasks[d.tasks.length]? = some { generation := e.request.generation } := by
    show (d.tasks ++ [_])[d.tasks.length]? = _
    rw [List.getElem?_append_right le_rfl, Nat.sub_self]
    rfl
  have generation {t g : ℕ} (gen : d.generation? t = some g) : (d.launch w e).generation? t = some g := by
    obtain ⟨task, there, -⟩ := Option.map_eq_some_iff.1 gen
    rw [generation?, old (List.getElem?_eq_some_iff.1 there).1]
    exact gen
  have outcome {t : ℕ} {o : OpenOutcome} (ended : d.outcome? t = some o) : (d.launch w e).outcome? t = some o := by
    obtain ⟨task, there, -⟩ := Option.bind_eq_some_iff.1 ended
    rw [outcome?, old (List.getElem?_eq_some_iff.1 there).1]
    exact ended
  have outcome_of {t : ℕ} {o : OpenOutcome} (ended : (d.launch w e).outcome? t = some o) : d.outcome? t = some o := by
    rcases lt_trichotomy t d.tasks.length with inside | rfl | outside
    · rwa [outcome?, old inside] at ended
    · rw [outcome?, new] at ended
      cases ended
    · rw [outcome?, List.getElem?_eq_none] at ended
      · cases ended
      · show (d.tasks ++ [_]).length ≤ t
        rw [List.length_append]
        exact outside
  have still {v : ℕ} {e' : Entry} {t' : ℕ} {must' : Bool} (there : d.workers[v]? = some (.waiting e' t' must')) :
      (d.launch w e).workers[v]? = some (.waiting e' t' must') := by
    show (d.workers.set w _)[v]? = _
    rw [getElem?_set_worker slot, if_neg]
    · exact there
    · rintro rfl
      rw [idle] at there
      cases there
  have own : (d.launch w e).workers[w]? = some (.waiting e d.tasks.length false) := by
    show (d.workers.set w _)[w]? = _
    rw [getElem?_set_worker slot, if_pos rfl]
  refine ⟨?_, ?_, ?_, ?_, ?_, h.once, ?_, ?_, h.phase_of_alive idle rfl rfl rfl rfl, h.ready, ?_, h.crashed⟩
  · rintro t g ⟨inside, open_⟩ gen
    show (d.opening.set e.request.generation d.tasks.length).get? g = _
    rw [Dict.get?_set]
    by_cases fresh : t = d.tasks.length
    · subst fresh
      rw [generation?, new] at gen
      rw [if_pos (Option.some.inj gen).symm]
    · have inside : t < d.tasks.length := by
        have : t < (d.tasks ++ [_]).length := inside
        rw [List.length_append, List.length_singleton] at this
        omega
      rw [generation?, old inside] at gen
      rw [outcome?, old inside] at open_
      have found := h.registered t g ⟨inside, open_⟩ gen
      rw [if_neg]
      · exact found
      · rintro rfl
        rw [free] at found
        cases found
  · intro g t found
    have found : (d.opening.set e.request.generation d.tasks.length).get? g = some t := found
    rw [Dict.get?_set] at found
    split_ifs at found with same
    · obtain rfl := Option.some.inj found
      refine ⟨?_, w, e, false, own⟩
      rw [generation?, new, same]
      rfl
    · obtain ⟨gen, v, e', must', there⟩ := h.awaited g t found
      exact ⟨generation gen, v, e', must', still there⟩
  · intro v e' t must' there
    have there : (d.workers.set w (.waiting e d.tasks.length false))[v]? = some (.waiting e' t must') := there
    rw [getElem?_set_worker slot] at there
    split_ifs at there with same
    · obtain ⟨rfl, rfl, -⟩ := Worker.waiting.inj (Option.some.inj there)
      refine ⟨by rw [generation?, new]; rfl, fun closed => ?_⟩
      have ended := h.ended _ closed
      rw [outcome?, List.getElem?_eq_none le_rfl] at ended
      cases ended
    · exact (h.waiting v e' t must' there).imp_left generation
  · exact fun g t found => (h.stored g t found).imp generation outcome
  · exact fun t closed => outcome (h.ended t closed)
  · intro closer t pin
    refine (h.found closer t (outcome_of pin)).imp_right (Or.imp_right ?_)
    rintro ⟨v, e', must', there⟩
    exact ⟨v, e', must', still there⟩
  · intro v z there alive
    have there : (d.workers.set w (.waiting e d.tasks.length false))[v]? = some z := there
    rw [getElem?_set_worker slot] at there
    split_ifs at there with same
    · rw [same]
      exact h.crew w _ idle rfl
    · exact h.crew v z there alive
  · intro off
    have := (h.stopped off).2.2 _ (List.mem_of_getElem? idle)
    cases this

theorem retask {f : OpenTask → OpenTask} (h : Pinned cfg d) (generation : ∀ task, (f task).generation = task.generation)
    (outcome : ∀ task, d.tasks[t]? = some task → (f task).outcome = task.outcome ∨ task.outcome = none) :
    Pinned cfg { d with tasks := d.tasks.modify t f } := by
  have lookup (t' : ℕ) : (d.tasks.modify t f)[t']? = if t = t' then (d.tasks[t']?).map f else d.tasks[t']? := by
    rw [List.getElem?_modify]
    split_ifs
    · rfl
    · exact id_map _
  have gen (t' : ℕ) : ResidentFastDaemon.generation? { d with tasks := d.tasks.modify t f } t' = d.generation? t' := by
    show ((d.tasks.modify t f)[t']?).map _ = (d.tasks[t']?).map _
    rw [lookup]
    split_ifs
    · rw [Option.map_map]
      exact congrArg (Option.map · _) (funext generation)
    · rfl
  have kept {t' : ℕ} {o : OpenOutcome} (ended : d.outcome? t' = some o) :
      ResidentFastDaemon.outcome? { d with tasks := d.tasks.modify t f } t' = some o := by
    show ((d.tasks.modify t f)[t']?).bind _ = _
    rw [lookup]
    obtain ⟨task, there, own⟩ := Option.bind_eq_some_iff.1 ended
    split_ifs with same
    · subst same
      rw [there]
      rcases outcome task there with equal | open_
      · exact equal.trans own
      · rw [open_] at own
        cases own
    · exact ended
  have new {t' : ℕ} {o : OpenOutcome}
      (ended : ResidentFastDaemon.outcome? { d with tasks := d.tasks.modify t f } t' = some o) :
      d.outcome? t' = some o ∨ d.Runs t' := by
    have ended : ((d.tasks.modify t f)[t']?).bind OpenTask.outcome = some o := ended
    rw [lookup] at ended
    split_ifs at ended with same
    · subst same
      obtain ⟨task', there', own⟩ := Option.bind_eq_some_iff.1 ended
      obtain ⟨task, there, rfl⟩ := Option.map_eq_some_iff.1 there'
      rcases outcome task there with equal | open_
      · refine .inl ?_
        rw [outcome?, there]
        exact equal.symm.trans own
      · refine .inr ⟨(List.getElem?_eq_some_iff.1 there).1, ?_⟩
        rw [outcome?, there]
        exact open_
    · exact .inl ended
  have runs {t' : ℕ} (r : ResidentFastDaemon.Runs { d with tasks := d.tasks.modify t f } t') : d.Runs t' := by
    obtain ⟨inside, open_⟩ := r
    have inside : t' < (d.tasks.modify t f).length := inside
    rw [List.length_modify] at inside
    refine ⟨inside, ?_⟩
    cases ended : d.outcome? t' with
    | none => rfl
    | some o =>
      rw [kept ended] at open_
      cases open_
  refine ⟨?_, ?_, ?_, ?_, ?_, h.once, ?_, h.crew, ?_, h.ready, h.stopped, h.crashed⟩
  · intro t' g r own
    rw [gen] at own
    exact h.registered t' g (runs r) own
  · intro g t' found
    rw [gen]
    exact h.awaited g t' found
  · intro v e t' must there
    rw [gen]
    exact h.waiting v e t' must there
  · intro g t' found
    rw [gen]
    exact (h.stored g t' found).imp_right kept
  · exact fun t' closed => kept (h.ended t' closed)
  · intro closer t' pin
    rcases new pin with old | running
    · exact h.found closer t' old
    · -- The task is in the table, so somebody waits for it.
      have own : d.generation? t' = some (d.tasks.get ⟨t', running.1⟩).generation := by
        rw [generation?, List.getElem?_eq_getElem running.1]
        rfl
      exact .inr (.inr (h.awaited _ t' (h.registered t' _ running own)).2)
  · have at_ : d.AtPhase d.shutdowns := h.phase
    show AtPhase _ d.shutdowns
    generalize d.shutdowns = phases at at_ ⊢
    rcases phases with _ | ⟨_ | _ | _, _ | _⟩ <;> exact at_

theorem cancelWorker (h : Pinned cfg d) (w : ℕ) : Pinned cfg (d.cancelWorker w) := by
  unfold ResidentFastDaemon.cancelWorker
  split
  · rename_i idle
    exact h.swap idle rfl nofun nofun
  · rename_i e t must waits
    split
    · exact h.retask (fun _ => rfl) fun _ _ => .inl rfl
    · refine h.put waits rfl (fun e' t' must' same => ?_) fun e' t' must' same => ?_
      · obtain ⟨rfl, rfl, rfl⟩ := Worker.waiting.inj same
        exact ⟨e, true, rfl⟩
      · obtain ⟨rfl, rfl, -⟩ := Worker.waiting.inj same
        exact h.waiting w e t must waits
  · exact h

theorem cancelWorkers (h : Pinned cfg d) (ws : List ℕ) : Pinned cfg (d.cancelWorkers ws) := by
  induction ws generalizing d with
  | nil => exact h
  | cons w ws ih => exact ih (h.cancelWorker w)

theorem opened (h : Pinned cfg d) (t : ℕ) (o : OpenOutcome) : Pinned cfg (d.opened t o) := by
  unfold ResidentFastDaemon.opened
  split
  · rename_i open_
    refine h.retask (fun _ => rfl) fun task there => .inr ?_
    rw [outcome?, there] at open_
    exact open_
  · exact h

/-! ### Turns of the workers -/

theorem resume {must : Bool} {o : OpenOutcome} (h : Pinned cfg d) (waits : d.workers[w]? = some (.waiting e t must))
    (ended : d.outcome? t = some o) (harmless : d.Harmless ⟨w, e, t, if must then .cancelled else o⟩) :
    Pinned cfg (d.resume w e t (if must then .cancelled else o)) := by
  obtain ⟨removes, writes, leaves⟩ := harmless
  have done : d.outcome? t ≠ none := by
    rw [ended]
    nofun
  -- The worker sees what the task has come to, or its own cancellation.
  have seen : (if must then OpenOutcome.cancelled else o) = o ∨ (if must then OpenOutcome.cancelled else o) = .cancelled := by
    cases must
    · exact .inl rfl
    · exact .inr rfl
  generalize (if must then OpenOutcome.cancelled else o) = o' at removes writes leaves seen ⊢
  cases o' with
  | pin =>
    have same : o = .pin := by
      rcases seen with same | none
      · exact same.symm
      · cases none
    rw [same] at ended
    have stored := h.store waits ended (writes rfl)
    refine stored.leave waits done removes (fun _ => .inl ?_) nofun
    exact (Dict.mem_values_iff _ _).2 ⟨e.request.generation, Dict.get?_set_self _ _ _⟩
  | failed x =>
    have same : o = .failed x := by
      rcases seen with same | none
      · exact same.symm
      · cases none
    rw [same] at ended
    have left : Pinned cfg { d with
        opening := d.opening.erase e.request.generation, workers := d.workers.set w .idle } :=
      h.leave waits done removes (fun pin => by rw [ended] at pin; cases pin) nofun
    exact left.congr _ _ _ _ _ _ _ _ _ _
  | cancelled =>
    have left : Pinned cfg { d with
        opening := d.opening.erase e.request.generation, workers := d.workers.set w .dead } := by
      refine h.leave waits done removes (fun pin => ?_) nofun
      rcases leaves rfl pin with there | other
      · exact .inl ((Dict.mem_values_iff _ _).2 ⟨_, there⟩)
      · exact .inr other
    exact left.congr _ _ _ _ _ _ _ _ _ _

theorem wake (h : Pinned cfg d) (orderly : ∀ r, d.wakes? w = some r → d.Harmless r) : Pinned cfg (d.wake w) := by
  have wakes := wakes_wake d w
  generalize d.wake w = d' at wakes ⊢
  cases wakes with
  | nothing => exact h
  | resumed e t must waits o ended seen => exact h.resume waits ended (orderly _ seen)

theorem take (h : Pinned cfg d) (orderly : ∀ r, d.passes? cfg w = some r → d.Harmless r) :
    Pinned cfg (d.take cfg w) := by
  have takes := takes_take cfg d w
  generalize d.take cfg w = d' at takes ⊢
  cases takes with
  | nothing => exact h
  | skipped idle e rest => exact h.congr _ _ _ _ _ _ _ _ _ _
  | started idle e rest front live d' starts =>
    have h : Pinned cfg (d.begin w e rest) := h.congr _ _ _ _ _ _ _ _ _ _
    have idle : (d.begin w e rest).workers[w]? = some .idle := idle
    have waiting (t : ℕ) (running : d.opening.get? e.request.generation = some t) :
        Pinned cfg ((d.begin w e rest).join w e t) := by
      refine h.put idle rfl nofun fun e' t' must' same => ?_
      obtain ⟨rfl, rfl, -⟩ := Worker.waiting.inj same
      obtain ⟨gen, v, e', must', there⟩ := h.awaited _ t running
      exact ⟨gen, (h.waiting v e' t must' there).2⟩
    cases starts with
    | pinned => exact h.swap idle rfl nofun nofun
    | own absent plain =>
      have pinned : Pinned cfg ((d.begin w e rest).ownPin e) := by
        refine h.storePin idle rfl absent fun t same => ?_
        cases same
      exact pinned.swap idle rfl nofun nofun
    | launched opens absent closed => exact h.launch idle closed
    | joined opens absent t running => exact waiting t running
    | resumed opens absent t running o ended =>
      obtain ⟨removes, writes, -⟩ := orderly _ (passes?_eq idle front live opens absent running ended)
      have own : ((d.begin w e rest).join w e t).workers[w]? = some (.waiting e t false) := by
        show ((d.begin w e rest).workers.set w _)[w]? = _
        rw [getElem?_set_worker (lt_of_worker idle), if_pos rfl]
      rw [← resume_put _ w e t o (.waiting e t false)]
      refine (waiting t running).resume own ended ⟨removes, writes, fun cancelled pin => ?_⟩
      -- A worker that passes is not cancelled itself.
      have pin : d.outcome? t = some .pin := pin
      have ended : d.outcome? t = some o := ended
      have cancelled : o = .cancelled := cancelled
      rw [pin, cancelled] at ended
      cases ended

theorem handled (h : Pinned cfg d) (w : ℕ) (o : HandlerOutcome) (latency : ℕ) :
    Pinned cfg (d.handled cfg w o latency) := by
  have handles := handles_handled cfg d w o latency
  generalize d.handled cfg w o latency = d' at handles ⊢
  cases handles with
  | completed e busy =>
    exact (h.swap (y := .idle) busy rfl nofun nofun).congr _ _ _ _ _ _ _ _ _ _
  | unwritable e busy => exact (h.swap (y := .idle) busy rfl nofun nofun).congr _ _ _ _ _ _ _ _ _ _
  | invalid e busy => exact (h.swap (y := .idle) busy rfl nofun nofun).congr _ _ _ _ _ _ _ _ _ _
  | raised e busy => exact (h.swap (y := .idle) busy rfl nofun nofun).congr _ _ _ _ _ _ _ _ _ _
  | cancelled e busy => exact (h.swap (y := .dead) busy rfl nofun nofun).congr _ _ _ _ _ _ _ _ _ _
  | nothing => exact h

theorem cancels {id : PyStr} (h : Pinned cfg d) (cancels : Cancels d id d') : Pinned cfg d' := by
  cases cancels with
  | worker v => exact h.cancelWorker v
  | queued => exact h.congr _ _ _ _ _ _ _ _ _ _
  | nothing => exact h

/-! ### Start and stop -/

theorem not_awaited (dead : ∀ x ∈ d.workers, x.isAlive = false) : ¬ d.Awaited t := by
  rintro ⟨v, e, must, there⟩
  cases dead _ (List.mem_of_getElem? there)

theorem start (h : Pinned cfg d) : Pinned cfg (d.start cfg) := by
  unfold ResidentFastDaemon.start
  split_ifs with off
  · have off := off.resolve_right h.crashed.1
    obtain ⟨quiet, empty, dead⟩ := h.stopped off
    have none_awaited (t : ℕ) : ¬ d.Awaited t := not_awaited dead
    have waits {v : ℕ} {e : Entry} {t : ℕ} {must : Bool} :
        (d.workers ++ List.replicate cfg.maxInflight Worker.idle)[v]? ≠ some (.waiting e t must) := by
      intro there
      rcases List.mem_append.1 (List.mem_of_getElem? there) with old | new
      · cases dead _ old
      · cases List.eq_of_mem_replicate new
    refine ⟨h.registered, fun g t found => absurd (h.awaited g t found).2 (none_awaited t),
      fun v e t must there => absurd there waits, h.stored, h.ended, h.once, ?_, ?_, ?_, fun _ => quiet, nofun,
      nofun, h.crashed.2⟩
    · intro closer t pin
      rcases h.found closer t pin with closed | kept | awaited
      · exact .inl closed
      · exact .inr (.inl kept)
      · exact absurd awaited (none_awaited t)
    · intro v x there alive
      have there : (d.workers ++ List.replicate cfg.maxInflight Worker.idle)[v]? = some x := there
      rw [List.getElem?_append] at there
      split_ifs at there with old
      · rw [dead x (List.mem_of_getElem? there)] at alive
        cases alive
      · have inside := (List.getElem?_eq_some_iff.1 there).1
        rw [List.length_replicate] at inside
        exact List.mem_map.2 ⟨v - d.workers.length, List.mem_range.2 inside, by omega⟩
    · show AtPhase _ d.shutdowns
      rw [quiet]
      trivial
  · exact h

theorem rephase {phases : List Phase} (h : Pinned cfg d) (mode : d.mode = .draining)
    (kept' : ResidentFastDaemon.kept { d with shutdowns := phases } = d.kept)
    (phase : AtPhase { d with shutdowns := phases } phases) : Pinned cfg { d with shutdowns := phases } := by
  refine ⟨h.registered, h.awaited, h.waiting, h.stored, h.ended, ?_, ?_, h.crew, phase, fun ready => ?_, fun off => ?_,
    h.crashed⟩
  · intro t
    rw [kept']
    exact h.once t
  · intro closer t pin
    rw [kept']
    exact h.found closer t pin
  · rw [show d.mode = .ready from ready] at mode
    cases mode
  · rw [show d.mode = .stopped from off] at mode
    cases mode

theorem kept_of_phases {phases : List Phase} (open_ : ∀ rest, phases ≠ [.closing rest]) :
    ResidentFastDaemon.kept { d with shutdowns := phases } = d.pins.values := by
  unfold ResidentFastDaemon.kept
  split
  · rename_i rest same
    exact absurd same (open_ rest)
  · rfl

theorem shutdown (h : Pinned cfg d) (drain : Bool) (alone : d.shutdowns = []) : Pinned cfg (d.shutdown drain) := by
  have draining : Pinned cfg { d with mode := .draining } := by
    refine ⟨h.registered, h.awaited, h.waiting, h.stored, h.ended, h.once, h.found, h.crew, ?_, nofun, nofun, nofun,
      h.crashed.2⟩
    show AtPhase _ d.shutdowns
    rw [alone]
    trivial
  have values (ws : List Worker) (ts : List OpenTask) : ResidentFastDaemon.kept
      { d with mode := .draining, workers := ws, tasks := ts } = d.pins.values := by
    unfold ResidentFastDaemon.kept
    show (match d.shutdowns with | [.closing rest] => rest | _ => d.pins.values) = _
    rw [alone]
  unfold ResidentFastDaemon.shutdown
  split_ifs with off
  · exact h
  · rw [alone]
    refine draining.rephase rfl ?_ rfl
    exact (kept_of_phases fun rest same => by cases same).trans (values d.workers d.tasks).symm
  · have cancelled := draining.cancelWorkers d.crew
    obtain ⟨ws, ts, same⟩ := cancelWorkers_eq { d with mode := .draining } d.crew
    dsimp only
    rw [same] at cancelled ⊢
    dsimp only
    rw [alone]
    refine cancelled.rephase rfl ?_ ⟨rfl, rfl⟩
    exact (kept_of_phases fun rest same => by cases same).trans (values ws ts).symm

theorem shutdowns_eq {i : ℕ} {p : Phase} (h : Pinned cfg d) (call : d.shutdowns[i]? = some p) :
    d.shutdowns = [p] ∧ i = 0 := by
  have at_ := h.phase
  generalize d.shutdowns = phases at at_ call ⊢
  rcases phases with _ | ⟨q, _ | ⟨q', l⟩⟩
  · cases call
  · cases i with
    | zero => exact ⟨congrArg (fun p => [p]) (Option.some.inj call), rfl⟩
    | succ i => cases call
  · cases q <;> exact at_.elim

theorem drained (h : Pinned cfg d) (i : ℕ) : Pinned cfg (d.drained i) := by
  unfold ResidentFastDaemon.drained
  split
  · rename_i call
    split_ifs
    · obtain ⟨alone, rfl⟩ := h.shutdowns_eq call
      have mode : d.mode = .draining := by
        have at_ := h.phase
        rw [alone] at at_
        exact at_
      have cancelled := h.cancelWorkers d.crew
      obtain ⟨ws, ts, same⟩ := cancelWorkers_eq d d.crew
      dsimp only
      rw [same] at cancelled ⊢
      dsimp only
      rw [alone]
      refine cancelled.rephase mode ?_ ⟨mode, rfl⟩
      refine (kept_of_phases fun rest same => by cases same).trans ?_
      unfold ResidentFastDaemon.kept
      dsimp only
      rw [alone]
    · exact h
  · exact h

theorem gathered (h : Pinned cfg d) (i : ℕ) : Pinned cfg (d.gathered cfg i) := by
  unfold ResidentFastDaemon.gathered
  split
  · rename_i ws call
    by_cases ended : d.allDead ws
    · rw [if_pos ended]
      obtain ⟨alone, rfl⟩ := h.shutdowns_eq call
      have at_ := h.phase
      rw [alone] at at_
      obtain ⟨mode, rfl⟩ := at_
      have dead : ∀ x ∈ d.workers, x.isAlive = false := by
        intro x mem
        by_contra alive
        have alive : x.isAlive = true := Bool.eq_true_of_not_eq_false alive
        obtain ⟨v, there⟩ := List.mem_iff_getElem?.1 mem
        have := List.all_eq_true.1 ended v (h.crew v x there alive)
        rw [List.getD_eq_getElem?_getD, there, Option.getD_some, alive] at this
        cases this
      have kept : d.kept = d.pins.values := by
        unfold ResidentFastDaemon.kept
        rw [alone]
      have once := h.once
      have found := h.found
      rw [kept] at once found
      rw [alone]
      refine ⟨h.registered, h.awaited, h.waiting, h.stored, h.ended, fun t => ?_, fun closer t pin => ?_, ?_, ?_, ?_, ?_,
        h.crashed⟩
      · refine le_trans (Nat.add_le_add_left ?_ _) (once t)
        show List.count _ (if cfg.hasCloser then d.pins.values else []) ≤ _
        split_ifs
        · exact le_rfl
        · exact Nat.zero_le _
      · refine (found closer t pin).imp_right (Or.imp_left fun mem => ?_)
        show _ ∈ (if cfg.hasCloser then d.pins.values else [])
        rw [if_pos closer]
        exact mem
      · intro v x there alive
        rw [dead x (List.mem_of_getElem? there)] at alive
        cases alive
      · refine ⟨mode, dead, fun p mem => ?_⟩
        split_ifs at mem
        · exact mem
        · cases mem
      · intro ready
        rw [show d.mode = .ready from ready] at mode
        cases mode
      · intro off
        rw [show d.mode = .stopped from off] at mode
        cases mode
    · rw [if_neg ended]
      exact h
  · exact h

theorem close (h : Pinned cfg d) (i : ℕ) (returns : Bool)
    (orderly : ∀ p rest, d.shutdowns[i]? = some (.closing (p :: rest)) → returns = true) :
    Pinned cfg (d.close i returns) := by
  unfold ResidentFastDaemon.close
  split
  · rename_i p rest call
    rw [if_pos (orderly p rest call)]
    obtain ⟨alone, rfl⟩ := h.shutdowns_eq call
    have at_ := h.phase
    rw [alone] at at_
    obtain ⟨mode, dead, inside⟩ := at_
    have kept : d.kept = p :: rest := by
      unfold ResidentFastDaemon.kept
      rw [alone]
    have once := h.once
    have found := h.found
    rw [kept] at once found
    have none_awaited (t : ℕ) : ¬ d.Awaited t := not_awaited dead
    rw [alone]
    refine ⟨h.registered, h.awaited, fun v e t must there => ?_, h.stored, fun t closed => ?_, fun t => ?_,
      fun closer t pin => ?_, h.crew, ⟨mode, dead, (List.forall_mem_cons.1 inside).2⟩, ?_, ?_, h.crashed⟩
    · exact absurd ⟨v, e, must, there⟩ (none_awaited t)
    · rcases List.mem_append.1 closed with old | new
      · exact h.ended t old
      · obtain ⟨g, there⟩ := (Dict.mem_values_iff _ _).1 (inside p List.mem_cons_self)
        rw [← List.mem_singleton.1 new] at there
        exact (h.stored g t there).2
    · show (d.closed ++ [p]).count _ + rest.count _ ≤ 1
      have := once t
      rw [List.count_cons] at this
      rw [List.count_append, List.count_singleton]
      omega
    · rcases found closer t pin with closed | kept | awaited
      · exact .inl (List.mem_append.2 (.inl closed))
      · rcases List.mem_cons.1 kept with rfl | later
        · exact .inl (List.mem_append.2 (.inr (List.mem_singleton_self _)))
        · exact .inr (.inl later)
      · exact absurd awaited (none_awaited t)
    · intro ready
      rw [show d.mode = .ready from ready] at mode
      cases mode
    · intro off
      rw [show d.mode = .stopped from off] at mode
      cases mode
  · exact h

theorem finish (h : Pinned cfg d) (i : ℕ) : Pinned cfg (d.finish i) := by
  unfold ResidentFastDaemon.finish
  split
  · rename_i call
    obtain ⟨alone, rfl⟩ := h.shutdowns_eq call
    have at_ := h.phase
    rw [alone] at at_
    obtain ⟨mode, dead, -⟩ := at_
    have kept : d.kept = [] := by
      unfold ResidentFastDaemon.kept
      rw [alone]
    have once := h.once
    have found := h.found
    rw [kept] at once found
    rw [alone]
    exact ⟨h.registered, h.awaited, h.waiting, nofun, h.ended, once, found, h.crew, trivial, nofun,
      fun _ => ⟨rfl, rfl, dead⟩, nofun, h.crashed.2⟩
  · exact h

theorem step (h : Pinned cfg d) (event : Event) (orderly : Orderly cfg d event) : Pinned cfg (d.step cfg event) := by
  cases event with
  | start => exact h.start
  | submit now value =>
    have submits := submits_submit cfg d now value
    show Pinned cfg (d.submit cfg now value).1
    generalize (d.submit cfg now value).1 = d' at submits
    cases submits with
    | nothing => exact h
    | queued => exact h.congr _ _ _ _ _ _ _ _ _ _
  | cancel id => exact h.cancels (cancels_cancel d id)
  | expire f =>
    have expires := expires_expire d f
    show Pinned cfg (d.expire f)
    generalize d.expire f = d' at expires
    cases expires with
    | nothing => exact h
    | expired e _ _ cancels =>
      have resolved : Pinned cfg ((d.dismiss f).resolve f .cancelled) := h.congr _ _ _ _ _ _ _ _ _ _
      exact resolved.cancels cancels
  | leave f => exact h.congr _ _ _ _ _ _ _ _ _ _
  | take w => exact h.take orderly
  | wake w => exact h.wake orderly
  | opened t o => exact h.opened t o
  | handled w o latency => exact h.handled w o latency
  | shutdown drain => exact h.shutdown drain orderly
  | drained i => exact h.drained i
  | gathered i => exact h.gathered i
  | close i returns => exact h.close i returns orderly
  | finish i => exact h.finish i
  | crash => exact orderly.elim
  | crashed i =>
    have none : d.crashed i = d := by
      unfold ResidentFastDaemon.crashed
      rw [h.crashed.2]
      rfl
    show Pinned cfg (d.crashed i)
    rw [none]
    exact h

end Pinned

/-! ## What the workers see -/

theorem outcome_of_tasks (same : d'.tasks = d.tasks) (t : ℕ) : d'.outcome? t = d.outcome? t := by
  unfold outcome?
  rw [same]

theorem outcome_modify {f : OpenTask → OpenTask} {o : OpenOutcome} {t' : ℕ}
    (kept : ∀ task, d.tasks[t']? = some task → (f task).outcome = task.outcome ∨ task.outcome = none)
    (ended : d.outcome? t = some o) : outcome? { d with tasks := d.tasks.modify t' f } t = some o := by
  obtain ⟨task, there, own⟩ := Option.bind_eq_some_iff.1 ended
  show ((d.tasks.modify t' f)[t]?).bind _ = _
  rw [List.getElem?_modify, there]
  by_cases same : t' = t
  · subst same
    rcases kept task there with equal | open_
    · show (if t' = t' then f task else task).outcome = _
      rw [if_pos rfl]
      exact equal.trans own
    · rw [open_] at own
      cases own
  · show (if t' = t then f task else task).outcome = _
    rw [if_neg same]
    exact own

theorem outcome_cancelWorker {o : OpenOutcome} (w : ℕ) (ended : d.outcome? t = some o) :
    (d.cancelWorker w).outcome? t = some o := by
  unfold cancelWorker
  split
  · exact ended
  · split
    · exact outcome_modify (fun _ _ => .inl rfl) ended
    · exact ended
  · exact ended

theorem outcome_cancelWorkers {o : OpenOutcome} (ws : List ℕ) (ended : d.outcome? t = some o) :
    (d.cancelWorkers ws).outcome? t = some o := by
  induction ws generalizing d with
  | nil => exact ended
  | cons w ws ih => exact ih (outcome_cancelWorker w ended)

theorem tasks_resume (d : ResidentFastDaemon) (w : ℕ) (e : Entry) (t : ℕ) (o : OpenOutcome) :
    (d.resume w e t o).tasks = d.tasks := by
  cases o <;> rfl

theorem outcome_cancels {id : PyStr} {o : OpenOutcome} (cancels : Cancels d id d') (ended : d.outcome? t = some o) :
    d'.outcome? t = some o := by
  cases cancels with
  | worker v => exact outcome_cancelWorker v ended
  | queued => exact ended
  | nothing => exact ended

theorem outcome_step {o : OpenOutcome} (event : Event) (ended : d.outcome? t = some o) :
    (d.step cfg event).outcome? t = some o := by
  cases event with
  | start =>
    show (d.start cfg).outcome? t = _
    unfold start
    split_ifs <;> exact ended
  | submit now value =>
    have submits := submits_submit cfg d now value
    show (d.submit cfg now value).1.outcome? t = _
    generalize (d.submit cfg now value).1 = d' at submits
    cases submits <;> exact ended
  | cancel id => exact outcome_cancels (cancels_cancel d id) ended
  | expire f =>
    have expires := expires_expire d f
    show (d.expire f).outcome? t = _
    generalize d.expire f = d' at expires
    cases expires with
    | nothing => exact ended
    | expired e _ _ cancels => exact outcome_cancels (d := (d.dismiss f).resolve f .cancelled) cancels ended
  | leave f => exact ended
  | take w =>
    have takes := takes_take cfg d w
    show (d.take cfg w).outcome? t = _
    generalize d.take cfg w = d' at takes
    cases takes with
    | nothing => exact ended
    | skipped => exact ended
    | started idle e rest _ _ _ starts =>
      cases starts with
      | pinned => exact ended
      | own => exact ended
      | launched =>
        obtain ⟨task, there, own⟩ := Option.bind_eq_some_iff.1 ended
        show ((d.tasks ++ [_])[t]?).bind _ = _
        rw [List.getElem?_append_left (List.getElem?_eq_some_iff.1 there).1, there]
        exact own
      | joined => exact ended
      | resumed => exact (outcome_of_tasks (tasks_resume _ _ _ _ _) t).trans ended
  | wake w =>
    have wakes := wakes_wake d w
    show (d.wake w).outcome? t = _
    generalize d.wake w = d' at wakes
    cases wakes with
    | nothing => exact ended
    | resumed => exact (outcome_of_tasks (tasks_resume _ _ _ _ _) t).trans ended
  | opened t' o' =>
    show (d.opened t' o').outcome? t = _
    unfold opened
    split
    · rename_i open_
      refine outcome_modify (fun task there => .inr ?_) ended
      rw [outcome?, there] at open_
      exact open_
    · exact ended
  | handled w o latency =>
    have handles := handles_handled cfg d w o latency
    show (d.handled cfg w o latency).outcome? t = _
    generalize d.handled cfg w o latency = d' at handles
    cases handles <;> exact ended
  | shutdown drain =>
    show (d.shutdown drain).outcome? t = _
    unfold shutdown
    split_ifs
    · exact ended
    · exact ended
    · exact outcome_cancelWorkers (d := { d with mode := .draining }) d.crew ended
  | drained i =>
    show (d.drained i).outcome? t = _
    unfold drained
    split
    · split_ifs
      · exact outcome_cancelWorkers d.crew ended
      · exact ended
    · exact ended
  | gathered i =>
    show (d.gathered cfg i).outcome? t = _
    unfold gathered
    split
    · split_ifs <;> exact ended
    · exact ended
  | close i returns =>
    show (d.close i returns).outcome? t = _
    unfold close
    split <;> exact ended
  | finish i =>
    show (d.finish i).outcome? t = _
    unfold finish
    split <;> exact ended
  | crash => exact outcome_cancelWorkers (d := { d with mode := .crashed }) d.crew ended
  | crashed i =>
    show (d.crashed i).outcome? t = _
    unfold crashed
    split
    · split_ifs <;> exact ended
    · exact ended

theorem outcome_of_sight {event : Event} {a : ℕ × OpenOutcome} (seen : d.sight? cfg event = some a) :
    d.outcome? a.1 = some a.2 := by
  cases event with
  | take w =>
    obtain ⟨r, passes, rfl⟩ := Option.map_eq_some_iff.1 seen
    unfold passes? at passes
    split at passes
    · split_ifs at passes
      obtain ⟨t, -, passes⟩ := Option.bind_eq_some_iff.1 passes
      obtain ⟨o, ended, rfl⟩ := Option.map_eq_some_iff.1 passes
      exact ended
    · cases passes
  | wake w =>
    unfold sight? at seen
    dsimp only at seen
    split at seen
    · obtain ⟨o, ended, rfl⟩ := Option.map_eq_some_iff.1 seen
      exact ended
    · cases seen
  | _ => cases seen

end ResidentFastDaemon

namespace Daemon.Opened

open ResidentFastDaemon

theorem singleFlight_of_pinned {cfg : Config} {s : Opened} (h : Pinned cfg s.daemon)
    (seen : ∀ a ∈ s.sights, s.daemon.outcome? a.1 = some a.2) : SingleFlight cfg s where
  single t t' runs runs' same := by
    have gen : s.daemon.generation? t = some (s.daemon.tasks.get ⟨t, runs.1⟩).generation := by
      rw [generation?, List.getElem?_eq_getElem runs.1]
      rfl
    have found := h.registered t _ runs gen
    have found' := h.registered t' _ runs' (same.symm.trans gen)
    exact Option.some.inj (found.symm.trans found')
  agree a mem b mem' same := by
    have first := seen a mem
    rw [same, seen b mem'] at first
    exact (Option.some.inj first).symm
  atMostOnce t := le_trans (Nat.le_add_right _ _) (h.once t)
  closed closer off t pin := by
    obtain ⟨quiet, empty, dead⟩ := h.stopped off
    have kept : s.daemon.kept = [] := by
      unfold kept
      rw [quiet]
      exact empty
    have closed : .opened t ∈ s.daemon.closed := by
      rcases h.found closer t pin with closed | there | awaited
      · exact closed
      · rw [kept] at there
        cases there
      · exact absurd awaited (Pinned.not_awaited dead)
    exact le_antisymm (le_trans (Nat.le_add_right _ _) (h.once t)) (List.count_pos_iff.2 closed)

/-- In an orderly run, at most one opening of a generation runs at once, all who wait for an opening see the same, and
every pin is closed once by the time the daemon is stopped. -/
theorem singleFlight_of_orderly (cfg : Config) (events : List Event)
    (orderly : Along (step cfg) (fun s event => Orderly cfg s.daemon event) {} events) :
    Always (step cfg) (SingleFlight cfg) {} events := by
  have start : Pinned cfg ({} : Opened).daemon := by
    refine ⟨?_, nofun, nofun, nofun, nofun, fun _ => Nat.zero_le _, nofun, nofun, trivial, nofun,
      fun _ => ⟨rfl, rfl, nofun⟩, nofun, rfl⟩
    rintro t g ⟨inside, -⟩
    cases inside
  rintro before after rfl
  have tracked : Pinned cfg (run (step cfg) {} before).daemon ∧
      ∀ a ∈ (run (step cfg) {} before).sights, (run (step cfg) {} before).daemon.outcome? a.1 = some a.2 := by
    refine (along_append.1 orderly).1.run_invariant
      (I := fun s => Pinned cfg s.daemon ∧ ∀ a ∈ s.sights, s.daemon.outcome? a.1 = some a.2) ⟨start, nofun⟩ ?_
    rintro s event ⟨pinned, seen⟩ ok
    refine ⟨pinned.step event ok, fun a mem => outcome_step event ?_⟩
    rcases List.mem_append.1 mem with old | new
    · exact seen a old
    · exact outcome_of_sight (Option.mem_toList.1 new)
  exact singleFlight_of_pinned tracked.1 tracked.2

/-! ## Two requests of one generation -/

/-- A request is taken and answered, and the daemon is shut down. -/
def servedRun : List Event :=
  [.start, .submit 0 (requestJson "r"), .take 0, .opened 0 .pin, .wake 0, .handled 0 (.returned []) 0, .shutdown true,
    .drained 0, .gathered 0, .close 0 true, .finish 0]

theorem singleFlight_servedRun :
    Along (step (crewOf 0)) (fun s event => Orderly (crewOf 0) s.daemon event) {} servedRun ∧
      Always (step (crewOf 0)) (SingleFlight (crewOf 0)) {} servedRun := by
  have orderly : Along (step (crewOf 0)) (fun s event => Orderly (crewOf 0) s.daemon event) {} servedRun := by
    refine ⟨trivial, trivial, ?_, trivial, ?_, trivial, rfl, trivial, trivial, fun _ _ _ => rfl, trivial, trivial⟩
    · intro r passes
      cases passes
    · intro r wakes
      obtain rfl := Option.some.inj wakes
      refine ⟨fun t found other => ?_, fun _ => .inl rfl, nofun⟩
      exact absurd (Option.some.inj found).symm other
  exact ⟨orderly, singleFlight_of_orderly (crewOf 0) servedRun orderly⟩

/-- Two requests wait for one opening, which fails.  The first worker goes on and takes the next request, which starts
an opening; the second worker goes on, and the next request that it takes starts another one. -/
def doubledRun : List Event :=
  [.start, .submit 0 (requestJson "a"), .submit 0 (requestJson "b"), .submit 0 (requestJson "c"),
    .submit 0 (requestJson "d"), .take 0, .take 1, .opened 0 (.failed 0), .wake 0, .take 0, .wake 1, .take 1]

/-- Two openings of one generation run. -/
theorem not_singleFlight_doubledRun : ¬ Always (step (crewOf 1)) (SingleFlight (crewOf 1)) {} doubledRun := by
  intro always
  have single := (always doubledRun [] (List.append_nil _).symm).single 1 2 ⟨by decide +kernel, by decide +kernel⟩
    ⟨by decide +kernel, by decide +kernel⟩ (by decide +kernel)
  cases single

end Daemon.Opened

end SimplicioFast
