import SimplicioFast.Lib.FileSystem

/-!
# Operations that succeed

When whatever there is lies in a directory, an operation on a path that nothing is in the way of returns, and what is
there afterwards is known of every path.
-/

namespace SimplicioFast

namespace Crash

universe u

variable {σ ε α β : Type u} {γ : Type*} {m : Prog σ ε α} {f : α → Prog σ ε β} {s t u : σ} {a : α} {b : β}

/-- The program returns, in this state. -/
def Returns (m : Prog σ ε α) (s : σ) (a : α) (t : σ) : Prop := (m s).result = .ok a ∧ (m s).last = t

theorem Returns.pure (a : α) (s : σ) : Returns (Pure.pure a : Prog σ ε α) s a s := ⟨rfl, rfl⟩

theorem Returns.bind (first : Returns m s a t) (rest : Returns (f a) t b u) : Returns (m >>= f) s b u := by
  obtain ⟨result, rfl⟩ := first
  rw [Returns, Prog.bind_of_ok result]
  exact rest

theorem exists_result_bind (first : (m s).result = .ok a) (rest : ∃ b, (f a (m s).last).result = .ok b) :
    ∃ b, ((m >>= f) s).result = .ok b :=
  rest.imp fun _ rest => Prog.result_bind_eq_ok_iff.2 ⟨a, first, rest⟩

theorem Returns.read {g : σ → Except ε α} (h : g s = .ok a) : Returns (Prog.read g) s a s := ⟨h, rfl⟩

end Crash

namespace FileSystem

open Crash

variable {ε : Type} (os : OsError → ε) {fs fs' : FileSystem} {p q : List PyStr} {b : Bytes} {l : List (List PyStr)}
  {d d' : List PyStr → Prop}

/-- Whatever there is lies in a directory. -/
def Closed (fs : FileSystem) : Prop := ∀ p, (fs.get? p).isSome → fs.IsDir p.dropLast

def Free (fs : FileSystem) (p : List PyStr) : Prop := fs.get? p = none ∨ fs.IsDir p

theorem Closed.isDir_of_above (closed : fs.Closed) (dir : fs.IsDir p) (above : q <+: p) : fs.IsDir q := by
  induction p using List.reverseRecOn with
  | nil => rwa [List.prefix_nil.1 above]
  | append_singleton p name ih =>
    rcases List.prefix_concat_iff.1 above with rfl | above
    · exact dir
    · refine ih ?_ above
      have parent := closed (p ++ [name]) (by rw [show fs.get? (p ++ [name]) = some .dir from dir]; rfl)
      rwa [List.dropLast_concat] at parent

theorem Closed.set_dir (closed : fs.Closed) (parent : fs.IsDir q.dropLast) : Closed (fs.set q .dir) := by
  have kept (r : List PyStr) (dir : fs.IsDir r) : IsDir (fs.set q .dir) r := by
    rw [IsDir, Dict.get?_set]
    split
    · rfl
    · exact dir
  intro p there
  rw [Dict.get?_set] at there
  split at there
  · rename_i same
    rw [same]
    exact kept _ parent
  · exact kept _ (closed p there)

theorem Closed.set_file (closed : fs.Closed) (free : ¬ fs.IsDir q) (parent : fs.IsDir q.dropLast) (b : Bytes) :
    Closed (fs.set q (.file b)) := by
  have kept (r : List PyStr) (dir : fs.IsDir r) : IsDir (fs.set q (.file b)) r := by
    rw [IsDir, Dict.get?_set_of_ne]
    · exact dir
    · rintro rfl
      exact free dir
  intro p there
  rw [Dict.get?_set] at there
  split at there
  · rename_i same
    rw [same]
    exact kept _ parent
  · exact kept _ (closed p there)

/-! ## Directories -/

theorem returns_ensureDir (closed : fs.Closed) (free : fs.Free q) (parent : fs.IsDir q.dropLast) :
    ∃ fs', Returns (ensureDir os q) fs ⟨⟩ fs' ∧ fs'.Closed ∧
      ∀ p, fs'.get? p = if p = q then some .dir else fs.get? p := by
  by_cases dir : fs.IsDir q
  · refine ⟨fs, ?_, closed, fun p => ?_⟩
    · unfold Returns ensureDir
      rw [if_pos dir]
      exact ⟨rfl, rfl⟩
    · split
      · rename_i same
        rw [same]
        exact dir
      · rfl
  · have absent := free.resolve_right dir
    refine ⟨fs.set q .dir, ?_, closed.set_dir parent, fun p => Dict.get?_set fs q p .dir⟩
    unfold Returns ensureDir mkdir
    rw [if_neg dir, if_neg (by simp [absent]), if_neg (not_not.2 parent)]
    exact ⟨rfl, rfl⟩

/-- Each path lies in a place of `d`, or in an earlier path. -/
def Climbs (d : List PyStr → Prop) : List (List PyStr) → Prop
  | [] => True
  | q :: l => d q.dropLast ∧ Climbs (fun p => d p ∨ p = q) l

theorem Climbs.mono (climbs : Climbs d l) (h : ∀ p, d p → d' p) : Climbs d' l := by
  induction l generalizing d d' with
  | nil => trivial
  | cons q l ih => exact ⟨h _ climbs.1, ih climbs.2 fun p => Or.imp_left (h p)⟩

theorem climbs_append (first : Climbs d l) (last : d q.dropLast ∨ q.dropLast ∈ l) : Climbs d (l ++ [q]) := by
  induction l generalizing d with
  | nil => exact ⟨last.resolve_right List.not_mem_nil, trivial⟩
  | cons r l ih =>
    refine ⟨first.1, ih first.2 ?_⟩
    rcases last with last | last
    · exact .inl (.inl last)
    · rcases List.mem_cons.1 last with same | mem
      · exact .inl (.inr same)
      · exact .inr mem

theorem climbs_inits (top : d []) (p : List PyStr) : Climbs d p.inits.tail := by
  induction p using List.reverseRecOn with
  | nil => exact trivial
  | append_singleton p name ih =>
    have starts : p.inits = [] :: p.inits.tail := by cases p <;> rfl
    have split : (p ++ [name]).inits.tail = p.inits.tail ++ [p ++ [name]] := by
      rw [List.inits_append, starts]
      rfl
    rw [split]
    refine climbs_append ih ?_
    rw [List.dropLast_concat]
    have mem := (List.mem_inits p p).2 (List.prefix_refl p)
    rw [starts] at mem
    rcases List.mem_cons.1 mem with rfl | mem
    · exact .inl top
    · exact .inr mem

theorem returns_ensureDirs (closed : fs.Closed) (climbs : Climbs fs.IsDir l) (free : ∀ q ∈ l, fs.Free q) :
    ∃ fs', Returns (l.foldlM (fun _ q => ensureDir os q) ⟨⟩) fs ⟨⟩ fs' ∧ fs'.Closed ∧
      ∀ p, fs'.get? p = if p ∈ l then some .dir else fs.get? p := by
  induction l generalizing fs with
  | nil => exact ⟨fs, Returns.pure _ _, closed, fun p => rfl⟩
  | cons q l ih =>
    obtain ⟨first, free⟩ := List.forall_mem_cons.1 free
    obtain ⟨fs₁, made, closed₁, found⟩ := returns_ensureDir os closed first climbs.1
    have next : Climbs fs₁.IsDir l := by
      refine climbs.2.mono fun p h => ?_
      rw [IsDir, found]
      rcases h with dir | rfl
      · split
        · rfl
        · exact dir
      · exact if_pos rfl
    obtain ⟨fs₂, rest, closed₂, found₂⟩ := ih closed₁ next fun r mem => by
      rw [Free, IsDir, found]
      split
      · exact .inr rfl
      · exact free r mem
    refine ⟨fs₂, ?_, closed₂, fun p => ?_⟩
    · rw [List.foldlM_cons]
      exact made.bind rest
    · rw [found₂, found]
      by_cases inside : p ∈ l
      · rw [if_pos inside, if_pos (List.mem_cons_of_mem _ inside)]
      · rw [if_neg inside]
        by_cases same : p = q
        · rw [if_pos same, if_pos (same ▸ List.mem_cons_self ..)]
        · rw [if_neg same, if_neg (by simp [same, inside])]

theorem returns_makedirs (closed : fs.Closed) (top : fs.IsDir []) (free : ∀ q, q <+: p → fs.Free q) :
    ∃ fs', Returns (makedirs os p) fs ⟨⟩ fs' ∧ fs'.Closed ∧
      ∀ q, fs'.get? q = if q <+: p then some .dir else fs.get? q := by
  obtain ⟨fs₁, above, closed₁, found⟩ := returns_ensureDirs os closed (climbs_inits top p.dropLast) fun q mem =>
    free q (((List.mem_inits _ _).1 (List.mem_of_mem_tail mem)).trans (List.dropLast_prefix p))
  have dir (q : List PyStr) (inside : q <+: p.dropLast) : fs₁.IsDir q := by
    rw [IsDir, found]
    by_cases mem : q ∈ p.dropLast.inits.tail
    · exact if_pos mem
    · rw [if_neg mem]
      have first : q ∈ p.dropLast.inits := (List.mem_inits _ _).2 inside
      have starts : p.dropLast.inits = [] :: p.dropLast.inits.tail := by cases p.dropLast <;> rfl
      rw [starts] at first
      rcases List.mem_cons.1 first with rfl | inside
      · exact top
      · exact absurd inside mem
  obtain ⟨fs₂, last, closed₂, found₂⟩ := returns_ensureDir os (q := p) closed₁ (by
    rw [Free, IsDir, found]
    split
    · exact .inr rfl
    · exact free p (List.prefix_refl p)) (dir _ (List.prefix_refl _))
  refine ⟨fs₂, above.bind last, closed₂, fun q => ?_⟩
  rw [found₂]
  by_cases same : q = p
  · rw [if_pos same, if_pos (same ▸ List.prefix_refl p)]
  · rw [if_neg same]
    have shorter : q <+: p ↔ q <+: p.dropLast := by
      refine ⟨fun inside => ?_, fun inside => inside.trans (List.dropLast_prefix p)⟩
      refine List.prefix_of_prefix_length_le inside (List.dropLast_prefix p) ?_
      have less : q.length < p.length := lt_of_le_of_ne inside.length_le fun equal => same (inside.eq_of_length equal)
      rw [List.length_dropLast]
      omega
    by_cases inside : q <+: p.dropLast
    · rw [if_pos (shorter.2 inside)]
      exact dir q inside
    · rw [if_neg (mt shorter.1 inside), found, if_neg]
      exact fun mem => inside ((List.mem_inits _ _).1 (List.mem_of_mem_tail mem))

/-! ## Files -/

theorem returns_write (free : ¬ fs.IsDir p) (parent : fs.IsDir p.dropLast) (b : Bytes) :
    Returns (write os p b) fs ⟨⟩ (fs.set p (.file b)) := by
  unfold Returns write
  rw [if_neg free, if_neg (not_not.2 parent)]
  exact ⟨rfl, rfl⟩

theorem returns_rename (there : fs.get? p = some (.file b)) (free : ¬ fs.IsDir q) (parent : fs.IsDir q.dropLast) :
    Returns (rename os p q) fs ⟨⟩ (Dict.set (fs.erase p) q (.file b)) := by
  unfold Returns rename
  rw [there]
  dsimp only
  rw [if_neg free, if_neg (not_not.2 parent)]
  exact ⟨rfl, rfl⟩

end FileSystem

end SimplicioFast
