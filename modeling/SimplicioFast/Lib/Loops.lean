import Mathlib.Data.List.Basic

/-!
# Loops that may return early

The body of a loop over a list may raise, go on with a new state, or return from the function.  `scan` runs such a body
over a list; a loop in a loop is a `scan` in the body of another one.

Two loops over the same list are compared turn by turn.  When each turn in which `P` holds is matched by the other loop,
so is a loop that satisfies `P` along its run (`scan_matched`); and when both loops end with the same output, and a turn
that breaks `P` would have written something else, then `P` held along the run (`along_of_ends`).
-/

namespace SimplicioFast

/-- How a turn of a loop ends: with the next turn, or with the return of the function. -/
inductive Turn (σ : Type*)
  | next (s : σ)
  | returned (s : σ)

namespace Turn

variable {ε σ τ α : Type*} {s : σ} {t : Turn σ} {as : List α}

def state : Turn σ → σ
  | .next s => s
  | .returned s => s

def scan (body : σ → α → Except ε (Turn σ)) : List α → σ → Except ε (Turn σ)
  | [], s => .ok (.next s)
  | a :: as, s => match body s a with
    | .error x => .error x
    | .ok (.returned s) => .ok (.returned s)
    | .ok (.next s) => scan body as s

example : scan (fun s a => .ok (if a = 0 then .returned s else .next (s + a))) [1, 2, 0, 4] 0 =
    (.ok (.returned 3) : Except String (Turn ℕ)) := by
  simp [scan]

variable {body : σ → α → Except ε (Turn σ)} {I : σ → Prop}

theorem scan_invariant (kept : ∀ s, I s → ∀ a ∈ as, ∀ t, body s a = .ok t → I t.state) (start : I s)
    (h : scan body as s = .ok t) : I t.state := by
  induction as generalizing s with
  | nil =>
    cases h
    exact start
  | cons a as ih =>
    have here := kept s start a List.mem_cons_self
    have rest := fun s start => ih (fun s hs a mem => kept s hs a (List.mem_cons_of_mem _ mem)) (s := s) start
    rw [scan] at h
    cases turn : body s a with
    | error x =>
      rw [turn] at h
      cases h
    | ok t' =>
      rw [turn] at h
      cases t' with
      | returned s' =>
        cases h
        exact here _ turn
      | next s' => exact rest s' (here _ turn) h

theorem scan_measure_le {f : σ → ℕ}
    (grows : ∀ s, I s → ∀ a ∈ as, ∀ t, body s a = .ok t → I t.state ∧ f t.state ≤ f s + 1) (start : I s)
    (h : scan body as s = .ok t) : f t.state ≤ f s + as.length := by
  induction as generalizing s with
  | nil =>
    cases h
    exact Nat.le_refl _
  | cons a as ih =>
    have here := grows s start a List.mem_cons_self
    have rest := fun s start => ih (fun s hs a mem => grows s hs a (List.mem_cons_of_mem _ mem)) (s := s) start
    rw [scan] at h
    cases turn : body s a with
    | error x =>
      rw [turn] at h
      cases h
    | ok t' =>
      obtain ⟨kept, here⟩ := here t' turn
      rw [turn] at h
      rw [List.length_cons]
      cases t' with
      | returned s' =>
        cases h
        omega
      | next s' =>
        have rest := rest s' kept h
        rw [state] at here
        omega

theorem scan_map {β : Type*} (f : β → α) (bs : List β) :
    scan body (bs.map f) s = scan (fun s b => body s (f b)) bs s := by
  induction bs generalizing s with
  | nil => rfl
  | cons b bs ih =>
    rw [List.map_cons, scan, scan]
    cases body s (f b) with
    | error x => rfl
    | ok t =>
      cases t with
      | returned s' => rfl
      | next s' => exact ih

theorem scan_append {front back : List α} {s' : σ} (h : scan body front s = .ok (.next s')) :
    scan body (front ++ back) s = scan body back s' := by
  induction front generalizing s with
  | nil =>
    cases h
    rfl
  | cons a front ih =>
    rw [scan] at h
    rw [List.cons_append, scan]
    cases turn : body s a with
    | error x =>
      rw [turn] at h
      cases h
    | ok t =>
      rw [turn] at h
      cases t with
      | returned s₁ => cases h
      | next s₁ => exact ih h

theorem exists_of_scan_error {x : ε} (h : scan body as s = .error x) : ∃ front a back s', as = front ++ a :: back ∧
    scan body front s = .ok (.next s') ∧ body s' a = .error x := by
  induction as generalizing s with
  | nil => cases h
  | cons a as ih =>
    rw [scan] at h
    cases turn : body s a with
    | error y =>
      rw [turn] at h
      cases h
      exact ⟨[], a, as, s, rfl, rfl, turn⟩
    | ok t =>
      rw [turn] at h
      cases t with
      | returned s₁ => cases h
      | next s₁ =>
        obtain ⟨front, b, back, s', rfl, before, here⟩ := ih h
        refine ⟨a :: front, b, back, s', rfl, ?_, here⟩
        rw [scan, turn]
        exact before

/-! ## Two loops -/

/-- The condition holds before every turn of the loop. -/
def Along (P : σ → α → Prop) (body : σ → α → Except ε (Turn σ)) : List α → σ → Prop
  | [], _ => True
  | a :: as, s => P s a ∧ ∀ s', body s a = .ok (.next s') → Along P body as s'

/-- The turns end in the same way, in related states. -/
def Matched (R : σ → τ → Prop) : Turn σ → Turn τ → Prop
  | .next s, .next s' => R s s'
  | .returned s, .returned s' => R s s'
  | _, _ => False

/-- A list that may be the output at the end, when the output so far is a function of the state. -/
def Ends {β : Type*} (f : σ → List β) : Turn σ → List β → Prop
  | .next s, l => f s <+: l
  | .returned s, l => f s = l

variable {β δ : Type*} {body' : τ → α → Except δ (Turn τ)} {R : σ → τ → Prop} {P Q : σ → α → Prop} {s' : τ}
  {t' : Turn τ} {f : σ → List β} {g : τ → List β} {l : List β}

theorem Matched.state (h : Matched R t t') : R t.state t'.state := by
  cases t <;> cases t' <;> first | exact h | exact h.elim

theorem prefix_of_ends (h : Ends f t l) : f t.state <+: l := by
  cases t with
  | next s => exact h
  | returned s => exact h ▸ List.prefix_rfl

theorem Along.and (h : Along P body as s) (h' : Along Q body as s) : Along (fun s a => P s a ∧ Q s a) body as s := by
  induction as generalizing s with
  | nil => trivial
  | cons a as ih => exact ⟨⟨h.1, h'.1⟩, fun s' turn => ih (h.2 s' turn) (h'.2 s' turn)⟩

theorem along_true (body : σ → α → Except ε (Turn σ)) (as : List α) (s : σ) : Along (fun _ _ => True) body as s := by
  induction as generalizing s with
  | nil => trivial
  | cons a as ih => exact ⟨trivial, fun s' _ => ih s'⟩

theorem prefix_of_scan (grows : ∀ s a t, body s a = .ok t → f s <+: f t.state) (h : scan body as s = .ok t) :
    f s <+: f t.state :=
  scan_invariant (I := fun s' => f s <+: f s') (fun _ old a _ t turn => old.trans (grows _ a t turn)) List.prefix_rfl h

theorem scan_matched (turns : ∀ s s' a t, R s s' → P s a → body s a = .ok t → ∃ t', body' s' a = .ok t' ∧ Matched R t t')
    (start : R s s') (along : Along P body as s) (h : scan body as s = .ok t) :
    ∃ t', scan body' as s' = .ok t' ∧ Matched R t t' := by
  induction as generalizing s s' with
  | nil =>
    cases h
    exact ⟨.next s', rfl, start⟩
  | cons a as ih =>
    obtain ⟨here, rest⟩ := along
    rw [scan] at h
    cases turn : body s a with
    | error x =>
      rw [turn] at h
      cases h
    | ok t₁ =>
      obtain ⟨t₁', turn', matched⟩ := turns s s' a t₁ start here turn
      rw [turn] at h
      rw [scan, turn']
      cases t₁ with
      | returned s₁ =>
        cases h
        cases t₁' with
        | returned s₁' => exact ⟨_, rfl, matched⟩
        | next s₁' => exact matched.elim
      | next s₁ =>
        cases t₁' with
        | returned s₁' => exact matched.elim
        | next s₁' => exact ih matched (rest s₁ turn) h

theorem along_of_ends
    (back : ∀ s s' a t t' l, R s s' → Q s a → body s a = .ok t → body' s' a = .ok t' → Ends f t l → Ends g t' l →
      P s a ∧ Matched R t t')
    (grows : ∀ s a t, body s a = .ok t → f s <+: f t.state)
    (grows' : ∀ s a t, body' s a = .ok t → g s <+: g t.state) (start : R s s') (given : Along Q body as s)
    (h : scan body as s = .ok t) (h' : scan body' as s' = .ok t') (ends : Ends f t l) (ends' : Ends g t' l) :
    Along P body as s ∧ Matched R t t' := by
  induction as generalizing s s' with
  | nil =>
    cases h
    cases h'
    exact ⟨trivial, start⟩
  | cons a as ih =>
    obtain ⟨here, rest⟩ := given
    rw [scan] at h h'
    cases turn : body s a with
    | error x =>
      rw [turn] at h
      cases h
    | ok t₁ =>
      cases turn' : body' s' a with
      | error x =>
        rw [turn'] at h'
        cases h'
      | ok t₁' =>
        rw [turn] at h
        rw [turn'] at h'
        -- what may end the whole loop may end this turn
        have ends₁ : Ends f t₁ l := by
          cases t₁ with
          | returned s₁ =>
            cases h
            exact ends
          | next s₁ => exact (prefix_of_scan grows h).trans (prefix_of_ends ends)
        have ends₁' : Ends g t₁' l := by
          cases t₁' with
          | returned s₁ =>
            cases h'
            exact ends'
          | next s₁ => exact (prefix_of_scan grows' h').trans (prefix_of_ends ends')
        obtain ⟨holds, matched⟩ := back s s' a t₁ t₁' l start here turn turn' ends₁ ends₁'
        cases t₁ with
        | returned s₁ =>
          cases t₁' with
          | next s₁' => exact matched.elim
          | returned s₁' =>
            cases h
            cases h'
            refine ⟨⟨holds, fun s₂ next => ?_⟩, matched⟩
            cases turn.symm.trans next
        | next s₁ =>
          cases t₁' with
          | returned s₁' => exact matched.elim
          | next s₁' =>
            obtain ⟨along, last⟩ := ih matched (rest s₁ turn) h h'
            refine ⟨⟨holds, fun s₂ next => ?_⟩, last⟩
            cases turn.symm.trans next
            exact along

end Turn

end SimplicioFast
