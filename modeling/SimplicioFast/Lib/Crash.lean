import Mathlib.Data.List.Basic

/-!
# Programs that may stop at every point

A program changes a state in small steps, may raise, and may be stopped behind every one of its steps.  `Triple C P m Q`
says that a run of `m` from a state with `C` and `P` passes through states with `C` only, and ends with `Q` when it
returns.  `C` is what holds after a crash, and the rules take it along: a proof about a program is the proof that each
step keeps it, with what is known in between in `P` and `Q`.
-/

namespace SimplicioFast

namespace Crash

universe u

/-- A run: the states after its steps, the last state, and what is returned or raised. -/
structure Run (σ ε : Type u) (α : Type u) where
  passed : List σ
  last : σ
  result : Except ε α

/-- A program on the states `σ`. -/
def Prog (σ ε α : Type u) := σ → Run σ ε α

variable {σ ε α β γ : Type u}

namespace Prog

instance : Monad (Prog σ ε) where
  pure a := fun s => ⟨[], s, .ok a⟩
  bind m f := fun s => match (m s).result with
    | .ok a => ⟨(m s).passed ++ (f a (m s).last).passed, (f a (m s).last).last, (f a (m s).last).result⟩
    | .error e => ⟨(m s).passed, (m s).last, .error e⟩

def raise (e : ε) : Prog σ ε α := fun s => ⟨[], s, .error e⟩

def read (f : σ → Except ε α) : Prog σ ε α := fun s => ⟨[], s, f s⟩

def change (f : σ → σ) : Prog σ ε PUnit := fun s => ⟨[f s], f s, .ok ⟨⟩⟩

/-- `try: m finally: clean`; what `clean` raises takes the place of the result. -/
def finally_ (m : Prog σ ε α) (clean : Prog σ ε PUnit) : Prog σ ε α := fun s =>
  ⟨(m s).passed ++ (clean (m s).last).passed, (clean (m s).last).last,
    match (clean (m s).last).result with
    | .ok _ => (m s).result
    | .error e => .error e⟩

/-- `m`, and `clean` when it raises. -/
def onError (m : Prog σ ε α) (clean : Prog σ ε PUnit) : Prog σ ε α := fun s => match (m s).result with
  | .ok _ => m s
  | .error _ => m.finally_ clean s

end Prog

theorem Prog.bind_of_ok {m : Prog σ ε α} {f : α → Prog σ ε β} {s : σ} {a : α} (result : (m s).result = .ok a) :
    (m >>= f) s = ⟨(m s).passed ++ (f a (m s).last).passed, (f a (m s).last).last, (f a (m s).last).result⟩ := by
  show (match (m s).result with
    | .ok a => Run.mk ((m s).passed ++ (f a (m s).last).passed) (f a (m s).last).last (f a (m s).last).result
    | .error e => ⟨(m s).passed, (m s).last, .error e⟩ : Run σ ε β) = _
  rw [result]

theorem Prog.bind_of_error {m : Prog σ ε α} {f : α → Prog σ ε β} {s : σ} {e : ε} (result : (m s).result = .error e) :
    (m >>= f) s = ⟨(m s).passed, (m s).last, .error e⟩ := by
  show (match (m s).result with
    | .ok a => Run.mk ((m s).passed ++ (f a (m s).last).passed) (f a (m s).last).last (f a (m s).last).result
    | .error e => ⟨(m s).passed, (m s).last, .error e⟩ : Run σ ε β) = _
  rw [result]

instance : LawfulMonad (Prog σ ε) := by
  refine LawfulMonad.mk' _ (fun m => ?_) (fun a f => ?_) fun m f g => ?_
  · funext s
    show (m >>= pure) s = m s
    cases result : (m s).result with
    | error e => rw [Prog.bind_of_error result, ← result]
    | ok a =>
      rw [Prog.bind_of_ok result]
      show Run.mk ((m s).passed ++ []) (m s).last (.ok a) = m s
      rw [List.append_nil, ← result]
  · funext s
    exact Prog.bind_of_ok (m := pure a) rfl
  · funext s
    cases result : (m s).result with
    | error e =>
      have first : ((m >>= f) s).result = .error e := by rw [Prog.bind_of_error result]
      rw [Prog.bind_of_error first, Prog.bind_of_error result, Prog.bind_of_error result]
    | ok a =>
      rw [Prog.bind_of_ok (f := fun a => f a >>= g) result]
      cases result' : (f a (m s).last).result with
      | error e =>
        have first : ((m >>= f) s).result = .error e := by rw [Prog.bind_of_ok result, result']
        rw [Prog.bind_of_error first, Prog.bind_of_ok result, Prog.bind_of_error result']
      | ok b =>
        have first : ((m >>= f) s).result = .ok b := by rw [Prog.bind_of_ok result, result']
        rw [Prog.bind_of_ok first, Prog.bind_of_ok result, Prog.bind_of_ok result', List.append_assoc]

theorem Prog.result_bind_eq_ok_iff {m : Prog σ ε α} {f : α → Prog σ ε β} {s : σ} {b : β} :
    ((m >>= f) s).result = .ok b ↔ ∃ a, (m s).result = .ok a ∧ (f a (m s).last).result = .ok b := by
  cases result : (m s).result with
  | error e =>
    rw [Prog.bind_of_error result]
    exact iff_of_false (fun same => by cases same) fun ⟨_, same, _⟩ => by cases same
  | ok a =>
    rw [Prog.bind_of_ok result]
    exact ⟨fun h => ⟨a, rfl, h⟩, fun ⟨a', same, h⟩ => by cases same; exact h⟩

theorem Prog.passed_of_bind_left {m : Prog σ ε α} {f : α → Prog σ ε β} {s t : σ} (mem : t ∈ (m s).passed) :
    t ∈ ((m >>= f) s).passed := by
  cases result : (m s).result with
  | error e =>
    rw [Prog.bind_of_error result]
    exact mem
  | ok a =>
    rw [Prog.bind_of_ok result]
    exact List.mem_append_left _ mem

theorem Prog.passed_of_bind_right {m : Prog σ ε α} {f : α → Prog σ ε β} {s t : σ} {a : α} (result : (m s).result = .ok a)
    (mem : t ∈ (f a (m s).last).passed) : t ∈ ((m >>= f) s).passed := by
  rw [Prog.bind_of_ok result]
  exact List.mem_append_right _ mem

/-- The states in which the run of a program may stop. -/
def Stops (m : Prog σ ε α) (s t : σ) : Prop := t = s ∨ t ∈ (m s).passed ∨ t = (m s).last

/-- From a state with `C` and `P`, every state of the run has `C`, and `Q` holds when it returns. -/
def Triple (C P : σ → Prop) (m : Prog σ ε α) (Q : α → σ → Prop) : Prop :=
  ∀ s, C s → P s → (∀ t ∈ (m s).passed, C t) ∧ C (m s).last ∧ ∀ a, (m s).result = .ok a → Q a (m s).last

namespace Triple

variable {C P P' : σ → Prop} {m : Prog σ ε α} {f : α → Prog σ ε β} {Q Q' : α → σ → Prop} {R : β → σ → Prop}
  {clean : Prog σ ε PUnit}

theorem stops {s t : σ} (h : Triple C P m Q) (safe : C s) (start : P s) (stop : Stops m s t) : C t := by
  obtain ⟨passed, last, -⟩ := h s safe start
  rcases stop with rfl | mem | rfl
  · exact safe
  · exact passed t mem
  · exact last

theorem pure {a : α} (h : ∀ s, C s → P s → Q a s) : Triple C P (Pure.pure a : Prog σ ε α) Q := by
  intro s safe start
  refine ⟨fun t mem => absurd mem List.not_mem_nil, safe, fun b same => ?_⟩
  cases same
  exact h s safe start

theorem raise (e : ε) : Triple C P (Prog.raise e) Q :=
  fun _ safe _ => ⟨fun _ mem => absurd mem List.not_mem_nil, safe, fun _ same => by cases same⟩

theorem read {g : σ → Except ε α} (h : ∀ s a, C s → P s → g s = .ok a → Q a s) : Triple C P (Prog.read g) Q :=
  fun s safe start => ⟨fun _ mem => absurd mem List.not_mem_nil, safe, fun a same => h s a safe start same⟩

theorem change {g : σ → σ} {Q : PUnit → σ → Prop} (h : ∀ s, C s → P s → C (g s) ∧ Q ⟨⟩ (g s)) :
    Triple C P (Prog.change (ε := ε) g) Q := by
  intro s safe start
  obtain ⟨kept, done⟩ := h s safe start
  refine ⟨fun t mem => ?_, kept, fun _ _ => done⟩
  cases List.mem_singleton.1 mem
  exact kept

theorem bind (first : Triple C P m Q) (rest : ∀ a, Triple C (Q a) (f a) R) : Triple C P (m >>= f) R := by
  intro s safe start
  obtain ⟨passed, last, returned⟩ := first s safe start
  cases result : (m s).result with
  | error e =>
    rw [Prog.bind_of_error result]
    exact ⟨passed, last, fun a same => by cases same⟩
  | ok a =>
    obtain ⟨passed', last', returned'⟩ := rest a _ last (returned a result)
    rw [Prog.bind_of_ok result]
    exact ⟨fun t mem => (List.mem_append.1 mem).elim (passed t) (passed' t), last', returned'⟩

theorem weaken (h : Triple C P m Q) (before : ∀ s, C s → P' s → P s) (after : ∀ a s, C s → Q a s → Q' a s) :
    Triple C P' m Q' := by
  intro s safe start
  obtain ⟨passed, last, returned⟩ := h s safe (before s safe start)
  exact ⟨passed, last, fun a same => after a _ last (returned a same)⟩

theorem of_forall {ι : Sort*} {P : ι → σ → Prop} (h : ∀ i, Triple C (P i) m Q) : Triple C (fun s => ∃ i, P i s) m Q :=
  fun s safe ⟨i, start⟩ => h i s safe start

theorem of_and {X : Prop} (h : X → Triple C P m Q) : Triple C (fun s => X ∧ P s) m Q :=
  fun s safe start => h start.1 s safe start.2

theorem finally_ (h : Triple C P m Q) (kept : ∀ a, Triple C (Q a) clean fun _ => Q a)
    (any : Triple C (fun _ => True) clean fun _ _ => True) : Triple C P (m.finally_ clean) Q := by
  intro s safe start
  obtain ⟨passed, last, returned⟩ := h s safe start
  obtain ⟨passed', last', -⟩ := any _ last trivial
  refine ⟨fun t mem => (List.mem_append.1 mem).elim (passed t) (passed' t), last', fun a same => ?_⟩
  have unfolded : (m.finally_ clean s).result = match (clean (m s).last).result with
    | .ok _ => (m s).result
    | .error e => .error e := rfl
  rw [unfolded] at same
  cases cleaned : (clean (m s).last).result with
  | error e =>
    rw [cleaned] at same
    cases same
  | ok u =>
    rw [cleaned] at same
    exact (kept a _ last (returned a same)).2.2 u cleaned

theorem onError (h : Triple C P m Q) (any : Triple C (fun _ => True) clean fun _ _ => True) :
    Triple C P (m.onError clean) Q := by
  intro s safe start
  obtain ⟨passed, last, returned⟩ := h s safe start
  obtain ⟨passed', last', -⟩ := any _ last trivial
  unfold Prog.onError
  cases result : (m s).result with
  | ok a => exact ⟨passed, last, returned⟩
  | error e =>
    refine ⟨fun t mem => (List.mem_append.1 mem).elim (passed t) (passed' t), last', fun a same => ?_⟩
    have unfolded : (m.finally_ clean s).result = match (clean (m s).last).result with
      | .ok _ => (m s).result
      | .error e => .error e := rfl
    rw [unfolded, result] at same
    split at same <;> cases same

end Triple

end Crash

end SimplicioFast
