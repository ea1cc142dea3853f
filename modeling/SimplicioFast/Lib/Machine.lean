import Mathlib.Data.List.Forall2

/-!
# Runs of a deterministic machine

A machine is a total step function `step : σ → α → σ` on states and operations; an operation that
raises is a step too, which may or may not have changed the state.  `Along step P s ops` says that
every step of the run of `ops` from `s` satisfies `P`.  A law of a machine and the condition under
which the law holds are both predicates of this form, and `Along.imp_of_invariant` is the rule that
derives one from the other through an invariant.
-/

namespace SimplicioFast

namespace Machine

variable {σ α : Type*} {step : σ → α → σ} {P Q : σ → α → Prop} {s : σ} {a : α} {ops ops' : List α}

/-- The state reached from `s` by the operations `ops`, in order. -/
def run (step : σ → α → σ) (s : σ) (ops : List α) : σ := ops.foldl step s

@[simp] theorem run_nil : run step s [] = s := rfl

@[simp] theorem run_cons : run step s (a :: ops) = run step (step s a) ops := rfl

@[simp] theorem run_append : run step s (ops ++ ops') = run step (run step s ops) ops' :=
  List.foldl_append

/-- Every step of the run of `ops` from `s` satisfies `P`. -/
def Along (step : σ → α → σ) (P : σ → α → Prop) : σ → List α → Prop
  | _, [] => True
  | s, a :: ops => P s a ∧ Along step P (step s a) ops

instance decidableAlong [∀ s a, Decidable (P s a)] : ∀ (s : σ) (ops : List α), Decidable (Along step P s ops)
  | _, [] => .isTrue trivial
  | s, a :: ops =>
    have := decidableAlong (step s a) ops
    inferInstanceAs (Decidable (P s a ∧ Along step P (step s a) ops))

@[simp] theorem along_nil : Along step P s [] := trivial

@[simp] theorem along_cons : Along step P s (a :: ops) ↔ P s a ∧ Along step P (step s a) ops :=
  Iff.rfl

@[simp] theorem along_append :
    Along step P s (ops ++ ops') ↔ Along step P s ops ∧ Along step P (run step s ops) ops' := by
  induction ops generalizing s with
  | nil => simp
  | cons a ops ih => simp [ih, and_assoc]

theorem along_iff :
    Along step P s ops ↔ ∀ before a after, ops = before ++ a :: after → P (run step s before) a := by
  constructor
  · rintro h before a after rfl
    exact (along_append.1 h).2.1
  · intro h
    induction ops generalizing s with
    | nil => trivial
    | cons a ops ih =>
      refine ⟨h [] a ops rfl, ih fun before b after e => ?_⟩
      exact h (a :: before) b after (by rw [e]; rfl)

theorem Along.run_invariant {I : σ → Prop} (h : Along step P s ops) (start : I s)
    (preserved : ∀ s a, I s → P s a → I (step s a)) : I (run step s ops) := by
  induction ops generalizing s with
  | nil => exact start
  | cons a ops ih => exact ih h.2 (preserved s a start h.1)

theorem Along.imp_of_invariant {I : σ → Prop} (h : Along step P s ops) (start : I s)
    (preserved : ∀ s a, I s → P s a → I (step s a)) (law : ∀ s a, I s → P s a → Q s a) :
    Along step Q s ops := by
  induction ops generalizing s with
  | nil => trivial
  | cons a ops ih => exact ⟨law s a start h.1, ih h.2 (preserved s a start h.1)⟩

theorem along_congr_of_invariant {I : σ → Prop} (start : I s)
    (preserved : ∀ s a, I s → I (step s a)) (agree : ∀ s a, I s → (P s a ↔ Q s a)) :
    Along step P s ops ↔ Along step Q s ops := by
  induction ops generalizing s with
  | nil => rfl
  | cons a ops ih => exact and_congr (agree s a start) (ih (preserved s a start))

/-! ## States reached -/

/-- Every state of the run of `ops` from `s`, the first one included, satisfies `I`. -/
def Always (step : σ → α → σ) (I : σ → Prop) (s : σ) (ops : List α) : Prop :=
  ∀ before after, ops = before ++ after → I (run step s before)

theorem always_iff {I : σ → Prop} :
    Always step I s ops ↔ I s ∧ Along step (fun s a => I (step s a)) s ops := by
  constructor
  · intro h
    refine ⟨h [] ops rfl, along_iff.2 fun before a after e => ?_⟩
    simpa using h (before ++ [a]) after (by simp [e])
  · rintro ⟨start, along⟩ before after rfl
    have inside := (along_append.1 along).1
    clear along
    induction before generalizing s with
    | nil => exact start
    | cons a before ih => exact ih inside.1 inside.2

/-- When, under an invariant `J` of all runs, a step from a state with `I` keeps `I` exactly under `Q`,
the states of a run that starts with `I` all satisfy `I` exactly when all its steps satisfy `Q`. -/
theorem always_iff_along_of_invariant {I J : σ → Prop} (invariant : J s)
    (preserved : ∀ s a, J s → J (step s a)) (start : I s)
    (agree : ∀ s a, J s → I s → (I (step s a) ↔ Q s a)) :
    Always step I s ops ↔ Along step Q s ops := by
  rw [always_iff, and_iff_right start]
  induction ops generalizing s with
  | nil => rfl
  | cons a ops ih =>
    rw [along_cons, along_cons, agree s a invariant start]
    exact and_congr_right fun q =>
      ih (preserved s a invariant) ((agree s a invariant start).2 q)

theorem always_iff_along {I : σ → Prop} (start : I s)
    (agree : ∀ s a, I s → (I (step s a) ↔ Q s a)) : Always step I s ops ↔ Along step Q s ops :=
  always_iff_along_of_invariant (J := fun _ => True) trivial (fun _ _ _ => trivial) start
    fun s a _ => agree s a

/-- A law `L` of the states of a run whose steps all satisfy `P`.  When a stronger `I` gives the law, when a
step with `Q` keeps `I`, and when a step that ends with the law has `Q`, the law holds in every state of the
run exactly when all its steps satisfy `Q`. -/
theorem always_iff_along_of_admitted {L I : σ → Prop} (admitted : Along step P s ops) (start : I s)
    (entails : ∀ s, I s → L s) (keeps : ∀ s a, I s → P s a → Q s a → I (step s a))
    (breaks : ∀ s a, I s → P s a → L (step s a) → Q s a) :
    Always step L s ops ↔ Along step Q s ops := by
  rw [always_iff, and_iff_right (entails s start)]
  induction ops generalizing s with
  | nil => rfl
  | cons a ops ih =>
    rw [along_cons, along_cons]
    constructor
    · rintro ⟨law, rest⟩
      have q := breaks s a start admitted.1 law
      exact ⟨q, (ih admitted.2 (keeps s a start admitted.1 q)).1 rest⟩
    · rintro ⟨q, rest⟩
      have kept := keeps s a start admitted.1 q
      exact ⟨entails _ kept, (ih admitted.2 kept).2 rest⟩

/-! ## Observations of the past -/

/-- What was past at some moment of the run of `ops` is observed the same at every later moment. -/
def Stable {ω β : Type*} (step : σ → α → σ) (past : σ → ω → Prop) (obs : σ → ω → β) (s : σ)
    (ops : List α) : Prop :=
  ∀ before during after, ops = before ++ during ++ after → ∀ w, past (run step s before) w →
    obs (run step s (before ++ during)) w = obs (run step s before) w

theorem stable_iff {ω β : Type*} {past : σ → ω → Prop} {obs : σ → ω → β} {I : σ → Prop}
    (start : I s) (preserved : ∀ s a, I s → I (step s a))
    (mono : ∀ s a w, I s → past s w → past (step s a) w) :
    Stable step past obs s ops ↔
      Along step (fun s a => ∀ w, past s w → obs (step s a) w = obs s w) s ops := by
  constructor
  · intro h
    refine along_iff.2 fun before a after e w hw => ?_
    simpa using h before [a] after (by simp [e]) w hw
  · rintro h before during after rfl w hw
    have inv : I (run step s before) := by
      clear h hw
      induction before generalizing s with
      | nil => exact start
      | cons a before ih => exact ih (preserved s a start)
    have along := (along_append.1 (along_append.1 h).1).2
    rw [run_append]
    generalize run step s before = t at hw inv along
    clear h
    induction during generalizing t with
    | nil => rfl
    | cons a during ih =>
      rw [run_cons, ih (step t a) (mono t a w inv hw) (preserved t a inv) along.2]
      exact along.1 w hw

end Machine

/-! ## Raising -/

theorem bind_ok.{u, v} {ε : Type u} {α β : Type v} {x : Except ε α} {f : α → Except ε β} {b : β} :
    (x >>= f) = .ok b ↔ ∃ a, x = .ok a ∧ f a = .ok b := by
  cases x with
  | error e =>
    constructor
    · intro h
      cases h
    · rintro ⟨_, h, _⟩
      cases h
  | ok a =>
    constructor
    · exact fun h => ⟨a, rfl, h⟩
    · rintro ⟨_, h, h'⟩
      cases h
      exact h'

theorem Except.exists_of_map_toOption.{u, v, w} {ε : Type u} {α : Type v} {β : Type w} {x : Except ε α} {f : α → β} {b : β}
    (h : x.toOption.map f = some b) : ∃ a, x = .ok a ∧ f a = b := by
  cases x with
  | error e => cases h
  | ok a => exact ⟨a, rfl, Option.some.inj h⟩

theorem Except.mapM_range_eq_ok {ε β : Type} {f : ℕ → Except ε β} {l : List β}
    (h : ∀ (i : ℕ) (bound : i < l.length), f i = .ok l[i]) :
    (List.range l.length).mapM f = .ok l := by
  induction l generalizing f with
  | nil => rfl
  | cons b l ih =>
    have first : f 0 = .ok b := h 0 (Nat.succ_pos _)
    have rest : (List.range l.length).mapM (f ∘ Nat.succ) = .ok l :=
      ih fun i bound => h (i + 1) (Nat.succ_lt_succ bound)
    rw [List.length_cons, List.range_succ_eq_map, List.mapM_cons, first, List.mapM_map]
    change (List.mapM (f ∘ Nat.succ) (List.range l.length) >>= fun bs => .ok (b :: bs)) = _
    rw [rest]
    rfl

theorem Except.mapM_eq_ok.{u, v} {ε : Type u} {α : Type*} {β : Type v} {f : α → Except ε β} {g : α → β} {l : List α}
    (h : ∀ a ∈ l, f a = .ok (g a)) : l.mapM f = .ok (l.map g) := by
  induction l with
  | nil => rfl
  | cons a l ih =>
    obtain ⟨first, rest⟩ := List.forall_mem_cons.1 h
    rw [List.mapM_cons, first, List.map_cons]
    change (List.mapM f l >>= fun bs => .ok (g a :: bs)) = _
    rw [ih rest]
    rfl

theorem Except.mapM_eq_ok_iff.{u, v} {ε : Type u} {α : Type*} {β : Type v} {f : α → Except ε β} {l : List α} {m : List β} :
    l.mapM f = .ok m ↔ List.Forall₂ (fun a b => f a = .ok b) l m := by
  induction l generalizing m with
  | nil =>
    rw [List.mapM_nil, List.forall₂_nil_left_iff]
    exact ⟨fun h => (Except.ok.inj h).symm, fun h => congrArg Except.ok h.symm⟩
  | cons a l ih =>
    rw [List.mapM_cons, bind_ok]
    constructor
    · rintro ⟨b, first, h⟩
      obtain ⟨bs, rest, h⟩ := bind_ok.1 h
      cases h
      exact .cons first (ih.1 rest)
    · intro h
      cases h with
      | cons first rest => exact ⟨_, first, bind_ok.2 ⟨_, ih.2 rest, rfl⟩⟩

theorem Except.mem_of_mapM_eq_ok.{u, v} {ε : Type u} {α : Type*} {β : Type v} {f : α → Except ε β} {l : List α}
    {m : List β} (h : l.mapM f = .ok m) {b : β} : b ∈ m ↔ ∃ a ∈ l, f a = .ok b := by
  have each := Except.mapM_eq_ok_iff.1 h
  clear h
  induction each with
  | nil => exact iff_of_false List.not_mem_nil fun ⟨_, absurd, _⟩ => List.not_mem_nil absurd
  | cons first _ ih =>
    refine List.mem_cons.trans ((or_congr ?_ ih).trans (List.exists_mem_cons_iff _ _ _).symm)
    rw [first, Except.ok.injEq, eq_comm]

theorem Except.exists_mapM_eq_ok_iff.{u, v} {ε : Type u} {α : Type*} {β : Type v} {f : α → Except ε β} {l : List α} :
    (∃ m, l.mapM f = .ok m) ↔ ∀ a ∈ l, ∃ b, f a = .ok b := by
  simp only [Except.mapM_eq_ok_iff]
  constructor
  · rintro ⟨m, all⟩ a mem
    induction all with
    | nil => cases mem
    | cons first _ ih =>
      cases mem with
      | head => exact ⟨_, first⟩
      | tail _ mem => exact ih mem
  · intro all
    induction l with
    | nil => exact ⟨[], .nil⟩
    | cons a l ih =>
      obtain ⟨⟨b, first⟩, rest⟩ := List.forall_mem_cons.1 all
      obtain ⟨m, rest⟩ := ih rest
      exact ⟨b :: m, .cons first rest⟩

theorem Except.forM_eq_ok_iff.{u} {ε : Type u} {α : Type*} {f : α → Except ε Unit} {l : List α} {u : Unit} :
    l.forM f = .ok u ↔ ∀ a ∈ l, f a = .ok () := by
  induction l with
  | nil => exact ⟨fun _ a mem => (List.not_mem_nil mem).elim, fun _ => rfl⟩
  | cons a l ih =>
    rw [List.forall_mem_cons, ← ih]
    exact bind_ok.trans ⟨fun ⟨_, h, h'⟩ => ⟨h, h'⟩, fun ⟨h, h'⟩ => ⟨(), h, h'⟩⟩

/-- What is raised, if anything, satisfies `P`. -/
def Except.RaisesOnly.{u, v} {ε : Type u} {α : Type v} (P : ε → Prop) (x : Except ε α) : Prop := ∀ e, x = .error e → P e

section RaisesOnly

variable {ε α β : Type*} {P : ε → Prop}

@[simp] theorem Except.raisesOnly_ok (a : α) : Except.RaisesOnly P (.ok a : Except ε α) := fun _ h => by cases h

@[simp] theorem Except.raisesOnly_error (e : ε) : Except.RaisesOnly P (.error e : Except ε α) ↔ P e :=
  ⟨fun h => h e rfl, fun h _ same => by
    cases same
    exact h⟩

theorem Except.raisesOnly_bind_iff.{u, v} {ε : Type u} {α β : Type v} {P : ε → Prop} {x : Except ε α}
    {f : α → Except ε β} :
    Except.RaisesOnly P (x >>= f) ↔ Except.RaisesOnly P x ∧ ∀ a, x = .ok a → Except.RaisesOnly P (f a) := by
  cases x with
  | error e =>
    have fails : (Except.error e >>= f) = .error e := rfl
    rw [fails, raisesOnly_error, raisesOnly_error]
    exact (and_iff_left fun _ same => by cases same).symm
  | ok a =>
    refine ⟨fun h => ⟨raisesOnly_ok a, fun b same => ?_⟩, fun h => h.2 a rfl⟩
    cases same
    exact h

end RaisesOnly

end SimplicioFast
