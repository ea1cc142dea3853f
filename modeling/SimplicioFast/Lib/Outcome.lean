import Mathlib.Data.List.Perm.Basic
import SimplicioFast.Lib.Machine
import SimplicioFast.Lib.Text

/-!
# Validating the items of a list

A validator reads the items of a list one by one, each with its index, which occurs in the errors only.  Two results
are the same when one returns what the other returns (`SameOk`), whatever errors they raise.  Lists that agree up to
their order then validate to lists that agree up to their order (`exists_perm_enumerateM`), and sorting by a key that
tells the items apart makes these equal (`insertionSort_eq_of_perm`).
-/

namespace SimplicioFast

namespace Except

universe u v

variable {ε : Type u} {α β γ : Type v}

/-- The two return the same value, or both raise. -/
def SameOk (x y : Except ε α) : Prop := ∀ a, x = .ok a ↔ y = .ok a

theorem SameOk.refl (x : Except ε α) : SameOk x x := fun _ => Iff.rfl

theorem sameOk_error (e e' : ε) : SameOk (.error e : Except ε α) (.error e') := fun _ => iff_of_false nofun nofun

theorem SameOk.bind {x y : Except ε α} {f g : α → Except ε β} (same : SameOk x y) (rest : ∀ a, SameOk (f a) (g a)) :
    SameOk (x >>= f) (y >>= g) := by
  intro b
  rw [bind_ok, bind_ok]
  exact exists_congr fun a => and_congr (same a) (rest a b)

theorem SameOk.map {x y : Except ε α} (f : α → β) (same : SameOk x y) : SameOk (x.map f) (y.map f) := by
  intro b
  have returns (z : Except ε α) : z.map f = .ok b ↔ ∃ a, z = .ok a ∧ f a = b := by
    cases z with
    | error e => exact iff_of_false nofun fun h => by cases h.choose_spec.1
    | ok a => simp [Except.map]
  rw [returns, returns]
  exact exists_congr fun a => and_congr_left' (same a)

end Except

/-! ## Lists with indices -/

section Lists

variable {ε α β : Type}

/-- The results for the items of a list, each with its index. -/
def enumerateM (f : ℕ → α → Except ε β) : ℕ → List α → Except ε (List β)
  | _, [] => .ok []
  | n, a :: as => do
    let b ← f n a
    let bs ← enumerateM f (n + 1) as
    return b :: bs

variable {f g : ℕ → α → Except ε β} {as as' : List α} {bs : List β} {n m : ℕ}

theorem enumerateM_eq_ok_iff (indep : ∀ n a, Except.SameOk (f n a) (f 0 a)) :
    enumerateM f n as = .ok bs ↔ List.Forall₂ (fun a b => f 0 a = .ok b) as bs := by
  induction as generalizing n bs with
  | nil => exact ⟨fun h => by cases h; exact .nil, fun h => by cases h; rfl⟩
  | cons a as ih =>
    rw [enumerateM, bind_ok]
    constructor
    · rintro ⟨b, first, rest⟩
      obtain ⟨bs', others, same⟩ := bind_ok.1 rest
      cases same
      exact .cons ((indep n a b).1 first) (ih.1 others)
    · intro all
      cases all with
      | cons first rest =>
        exact ⟨_, (indep n a _).2 first, bind_ok.2 ⟨_, ih.2 rest, rfl⟩⟩

theorem mem_enumerateM_iff (indep : ∀ n a, Except.SameOk (f n a) (f 0 a)) (h : enumerateM f n as = .ok bs) {b : β} :
    b ∈ bs ↔ ∃ a ∈ as, f 0 a = .ok b := by
  have all := (enumerateM_eq_ok_iff indep).1 h
  clear h
  induction all with
  | nil => simp
  | cons first _ ih =>
    rw [List.mem_cons, List.exists_mem_cons_iff]
    refine or_congr ⟨fun same => same ▸ first, fun returned => ?_⟩ ih
    exact Except.ok.inj (returned.symm.trans first)

/-- The two lists are the same up to the order and up to related items. -/
def PermUpTo (R : α → α → Prop) (as as' : List α) : Prop := ∃ mid, as.Perm mid ∧ List.Forall₂ R mid as'

theorem permUpTo_of_perm (perm : as.Perm as') : PermUpTo Eq as as' :=
  ⟨as', perm, List.forall₂_refl _⟩

theorem PermUpTo.length {R : α → α → Prop} (same : PermUpTo R as as') : as.length = as'.length := by
  obtain ⟨mid, perm, related⟩ := same
  exact perm.length_eq.trans related.length_eq

theorem exists_perm_enumerateM {R : α → α → Prop} (same : PermUpTo R as as')
    (indep : ∀ n a, Except.SameOk (f n a) (f 0 a)) (indep' : ∀ n a, Except.SameOk (g n a) (g 0 a))
    (agree : ∀ a a', R a a' → ∀ b, f 0 a = .ok b → g 0 a' = .ok b) (h : enumerateM f n as = .ok bs) :
    ∃ bs', bs.Perm bs' ∧ enumerateM g m as' = .ok bs' := by
  obtain ⟨mid, perm, related⟩ := same
  have all := (enumerateM_eq_ok_iff indep).1 h
  obtain ⟨bs', results, order⟩ := List.perm_comp_forall₂ perm.symm all
  refine ⟨bs', order.symm, (enumerateM_eq_ok_iff indep').2 ?_⟩
  clear h all perm order
  induction related generalizing bs' with
  | nil =>
    cases results
    exact .nil
  | cons first _ ih =>
    cases results with
    | cons returned rest => exact .cons (agree _ _ first _ returned) (ih _ rest)

/-! ## Sorting by a key -/

variable {κ : Type} [LinearOrder κ] {key : β → κ}

theorem insertionSort_eq_of_perm {bs' : List β} (perm : bs.Perm bs')
    (apart : ∀ a ∈ bs, ∀ b ∈ bs, key a = key b → a = b) :
    bs.insertionSort (fun a b => key a ≤ key b) = bs'.insertionSort fun a b => key a ≤ key b := by
  have : Std.Total fun a b : β => key a ≤ key b := ⟨fun a b => le_total _ _⟩
  have : IsTrans β fun a b => key a ≤ key b := ⟨fun _ _ _ => le_trans⟩
  have sorts (l : List β) := List.perm_insertionSort (fun a b => key a ≤ key b) l
  refine List.Perm.eq_of_pairwise (?_ : ∀ a b, _ → _ → key a ≤ key b → key b ≤ key a → a = b) ?_ ?_ ?_
  · intro a b mem mem' le le'
    have inside : a ∈ bs := (sorts bs).mem_iff.1 mem
    have inside' : b ∈ bs := perm.mem_iff.2 ((sorts bs').mem_iff.1 mem')
    exact apart a inside b inside' (le_antisymm le le')
  · exact List.pairwise_insertionSort _ _
  · exact List.pairwise_insertionSort _ _
  · exact (sorts bs).trans (perm.trans (sorts bs').symm)

theorem sortedSet_of_perm {l l' : List PyStr} (perm : l.Perm l') : PyStr.sortedSet l = PyStr.sortedSet l' := by
  have sorted : l.dedup.insertionSort (fun a b => id a ≤ id b) = l'.dedup.insertionSort fun a b => id a ≤ id b :=
    insertionSort_eq_of_perm perm.dedup fun _ _ _ _ same => same
  exact sorted

theorem filter_insertionSort (k : κ) [DecidablePred fun b => key b = k] (bs : List β) :
    (bs.insertionSort fun a b => key a ≤ key b).filter (fun b => key b = k) = bs.filter fun b => key b = k := by
  have inserted (b : β) (l : List β) : (l.orderedInsert (fun a b => key a ≤ key b) b).filter (fun b => key b = k) =
      (b :: l).filter fun b => key b = k := by
    induction l with
    | nil => rfl
    | cons c l ih =>
      rw [List.orderedInsert]
      split_ifs with le
      · rfl
      · rw [List.filter_cons, ih]
        have lt : key c < key b := not_le.1 le
        by_cases here : key b = k
        · have other : key c ≠ k := (here ▸ lt).ne
          simp [here, other]
        · simp [here, List.filter_cons]
  induction bs with
  | nil => rfl
  | cons b bs ih =>
    rw [List.insertionSort_cons, inserted, List.filter_cons, List.filter_cons, ih]

end Lists

end SimplicioFast
