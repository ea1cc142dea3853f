import SimplicioFast.Slots.Executor

/-!
# The directories of overlays

The overlay of an execution is the directory `overlays/run_id/slot-ggeneration-fence` below the root.  The identifiers are
any texts, so they may hold separators: they may lead out of `overlays`, one overlay may lie in another, and different
identifiers may spell the same name.

The overlays of two executions are isolated below every root exactly when the names that the identifiers spell are
(`isolated_iff`).
-/

namespace SimplicioFast

namespace Slots

open Crash

/-! ## Names -/

/-- Where a name leads from below the root; `none` when it leads out of it. -/
def climb? (p : Option (List PyStr)) (name : PyStr) : Option (List PyStr) :=
  p.bind fun p =>
    if FileSystem.isDot name then some p
    else if name = ("..") then if p = [] then none else some p.dropLast
    else some (p ++ [name])

variable {root p q l l' names : List PyStr} {name z : PyStr}

theorem climb?_some : climb? (some p) name =
    if FileSystem.isDot name then some p
    else if name = ("..") then if p = [] then none else some p.dropLast
    else some (p ++ [name]) := rfl

theorem climb_eq : climb p name =
    if FileSystem.isDot name then p else if name = ("..") then p.dropLast else p ++ [name] := rfl

theorem foldl_climb?_none : names.foldl climb? none = none := by
  induction names with
  | nil => rfl
  | cons name names ih => exact ih

theorem foldl_climb_of_some (inside : names.foldl climb? (some p) = some q) : names.foldl climb (root ++ p) = root ++ q := by
  induction names generalizing p with
  | nil =>
    cases inside
    rfl
  | cons name names ih =>
    rw [List.foldl_cons] at inside ⊢
    rw [climb?_some] at inside
    rw [climb_eq]
    split at inside
    · rename_i dot
      rw [if_pos dot]
      exact ih inside
    · rename_i dot
      rw [if_neg dot]
      split at inside
      · rename_i up
        rw [if_pos up]
        split at inside
        · rw [foldl_climb?_none] at inside
          cases inside
        · rename_i some_
          rw [List.dropLast_append_of_ne_nil some_]
          exact ih inside
      · rename_i up
        rw [if_neg up, List.append_assoc]
        exact ih inside

theorem notMem_foldl_climb (fresh : z ∉ names) (absent : z ∉ p) : z ∉ names.foldl climb p := by
  induction names generalizing p with
  | nil => exact absent
  | cons name names ih =>
    rw [List.mem_cons, not_or] at fresh
    refine ih fresh.2 ?_
    unfold climb
    split
    · exact absent
    · split
      · exact fun mem => absent (List.mem_of_mem_dropLast mem)
      · rw [List.mem_append, List.mem_singleton, not_or]
        exact ⟨absent, fresh.1⟩

theorem notMem_of_climb?_none (outside : names.foldl climb? (some p) = none) (fresh : z ∉ names) (absent : z ∉ p) :
    z ∉ names.foldl climb (z :: p) := by
  induction names generalizing p with
  | nil => cases outside
  | cons name names ih =>
    rw [List.mem_cons, not_or] at fresh
    rw [List.foldl_cons] at outside ⊢
    rw [climb?_some] at outside
    rw [climb_eq]
    split at outside
    · rename_i dot
      rw [if_pos dot]
      exact ih outside fresh.2 absent
    · rename_i dot
      rw [if_neg dot]
      split at outside
      · rename_i up
        rw [if_pos up]
        split at outside
        · rename_i none
          rw [none]
          exact notMem_foldl_climb fresh.2 List.not_mem_nil
        · rename_i some_
          rw [List.dropLast_cons_of_ne_nil some_]
          exact ih outside fresh.2 fun mem => absent (List.mem_of_mem_dropLast mem)
      · rename_i up
        rw [if_neg up, List.cons_append]
        refine ih outside fresh.2 ?_
        rw [List.mem_append, List.mem_singleton, not_or]
        exact ⟨absent, fresh.1⟩

theorem exists_fresh (names : List PyStr) : ∃ z : PyStr, z ∉ names := by
  refine ⟨names.flatten ++ [.scalar 'x'], fun mem => ?_⟩
  have shorter := (List.sublist_flatten_of_mem mem).length_le
  rw [List.length_append, List.length_singleton] at shorter
  omega

/-! ## Overlays -/

variable {c : Conversions} {eq : Json → Json → Bool} {env env' : Envelope} {overlay : List PyStr}

/-- The directory of an overlay, when there is one. -/
def overlayDir (c : Conversions) (root : List PyStr) (env : Envelope) : Option (List PyStr) :=
  (overlayPath c root env).toOption.map Joined.resolve

/-- The names that the identifiers spell from the root; `none` when they start elsewhere or lead out of the root. -/
def spelled (c : Conversions) (env : Envelope) : Option (List PyStr) :=
  match env.runId.value with
  | .str runId =>
    if runId.head? = some (.scalar '/') ∨ (dirName c env).head? = some (.scalar '/') then none
    else (("overlays" : PyStr) :: (runId.splitOn (.scalar '/') ++ (dirName c env).splitOn (.scalar '/'))).foldl climb? (some [])
  | _ => none

theorem splitOn_overlays : ("overlays" : PyStr).splitOn (.scalar '/') = ["overlays"] := by decide

theorem overlayDir_of_text {runId : PyStr} (text : env.runId.value = .str runId) : overlayDir c root env = some (
    if (dirName c env).head? = some (.scalar '/') then ((dirName c env).splitOn (.scalar '/')).foldl climb []
    else if runId.head? = some (.scalar '/') then
      (runId.splitOn (.scalar '/') ++ (dirName c env).splitOn (.scalar '/')).foldl climb []
    else (("overlays" : PyStr) :: (runId.splitOn (.scalar '/') ++ (dirName c env).splitOn (.scalar '/'))).foldl climb root) := by
  have first : (⟨root, []⟩ : Joined).join "overlays" = ⟨root, ["overlays"]⟩ := by
    rw [Joined.join, if_neg (by decide), splitOn_overlays]
    rfl
  unfold overlayDir overlayPath
  rw [text, first]
  refine congrArg some ?_
  rw [Joined.join]
  split
  · rfl
  · rw [Joined.join]
    split
    · rfl
    · rw [Joined.resolve, List.append_assoc]
      rfl

theorem overlayDir_of_spelled (spells : spelled c env = some l) : overlayDir c root env = some (root ++ l) := by
  unfold spelled at spells
  split at spells
  · rename_i runId text
    split at spells
    · cases spells
    · rename_i relative
      rw [not_or] at relative
      rw [overlayDir_of_text text, if_neg relative.2, if_neg relative.1, ← foldl_climb_of_some spells, List.append_nil]
  · cases spells

theorem exists_root_of_spelled_none {runId : PyStr} (text : env.runId.value = .str runId) (spells : spelled c env = none) :
    ∃ root p, overlayDir c root env = some p ∧ ¬ overlaysDir root <+: p := by
  have longer (p : List PyStr) : ¬ overlaysDir p <+: p := by
    intro inside
    have shorter := inside.length_le
    rw [overlaysDir, List.length_append, List.length_singleton] at shorter
    omega
  by_cases dir : (dirName c env).head? = some (.scalar '/')
  · exact ⟨_, _, by rw [overlayDir_of_text text, if_pos dir], longer _⟩
  · by_cases run : runId.head? = some (.scalar '/')
    · exact ⟨_, _, by rw [overlayDir_of_text text, if_neg dir, if_pos run], longer _⟩
    · have outside : (("overlays" : PyStr) :: (runId.splitOn (.scalar '/') ++
          (dirName c env).splitOn (.scalar '/'))).foldl climb? (some []) = none := by
        unfold spelled at spells
        rw [text] at spells
        dsimp only at spells
        rwa [if_neg (not_or.2 ⟨run, dir⟩)] at spells
      obtain ⟨z, fresh⟩ := exists_fresh (("overlays" : PyStr) :: (runId.splitOn (.scalar '/') ++
        (dirName c env).splitOn (.scalar '/')))
      refine ⟨[z], _, by rw [overlayDir_of_text text, if_neg dir, if_neg run], fun inside => ?_⟩
      exact notMem_of_climb?_none outside fresh List.not_mem_nil (inside.subset (List.mem_cons_self ..))

/-! ## Writes -/

theorem content_writeOne {progress : Progress} {item : PyStr × Bytes} {fs : FileSystem}
    (changed : ((writeOne env overlay progress item) fs).last.content q ≠ fs.content q) : overlay <+: q := by
  by_contra outside
  have kept : Triple (fun fs' : FileSystem => fs'.content q = fs.content q) (fun _ => True)
      (writeOne env overlay progress item) fun _ _ => True := by
    unfold writeOne
    split
    · exact Triple.raise _
    · refine Triple.bind (Q := fun path _ => overlay <+: path) (Triple.read fun fs path _ _ found => ?_) fun path => ?_
      · unfold target at found
        split at found
        · cases found
        · dsimp only at found
          split at found
          · rename_i inside
            cases found
            exact inside.1
          · cases found
      · refine Triple.bind (Q := fun _ _ => overlay <+: path) ?_ fun _ => Triple.bind (Q := fun _ _ => True) ?_ fun _ =>
          Triple.pure fun _ _ _ => trivial
        · refine (FileSystem.triple_makedirs (I := fun _ => overlay <+: path) fun fs p same inside _ absent _ =>
            ⟨?_, inside⟩).weaken (fun _ _ h => h) fun _ _ _ h => h.1
          exact (FileSystem.content_set_dir (FileSystem.content_of_none absent) q).trans same
        · refine FileSystem.triple_write fun fs same inside _ => ⟨fun n => ?_, trivial⟩
          rw [FileSystem.content_set_file, if_neg]
          · exact same
          · rintro rfl
            exact outside inside
  exact changed (kept fs rfl trivial).2.1

/-! ## Isolation -/

/-- The path is below the directory of the overlays. -/
def Below (root p : List PyStr) : Prop := overlaysDir root <+: p ∧ p ≠ overlaysDir root

/-- The envelopes differ in what the overlay is named after. -/
def Differ (eq : Json → Json → Bool) (env env' : Envelope) : Prop :=
  ¬ (eq env.runId.value env'.runId.value = true ∧ eq env.slotId.value env'.slotId.value = true ∧
    env.generation = env'.generation ∧ eq env.fence.value env'.fence.value = true)

/-- No write of the first execution changes a file outside of the overlays, or in the overlay of the second one when they
differ. -/
def Frames (c : Conversions) (root : List PyStr) (differ : Prop) (env env' : Envelope) : Prop :=
  ∀ p, overlayDir c root env = some p → ∀ (progress : Progress) (item : PyStr × Bytes) (fs : FileSystem) (q : List PyStr),
    ((writeOne env p progress item) fs).last.content q ≠ fs.content q →
      overlaysDir root <+: q ∧ (differ → ∀ p', overlayDir c root env' = some p' → ¬ p' <+: q)

/-- The overlays of the executions are below the directory of the overlays, and when the envelopes differ neither
contains the other. -/
structure Isolated (c : Conversions) (eq : Json → Json → Bool) (root : List PyStr) (env env' : Envelope) : Prop where
  below : ∀ p, overlayDir c root env = some p → Below root p
  below' : ∀ p, overlayDir c root env' = some p → Below root p
  apart : Differ eq env env' → ∀ p p', overlayDir c root env = some p → overlayDir c root env' = some p' →
    ¬ p <+: p' ∧ ¬ p' <+: p
  frames : Frames c root (Differ eq env env') env env'
  frames' : Frames c root (Differ eq env env') env' env

/-- The identifiers spell names below `overlays`, unless the run id is no text and no overlay is made. -/
def Inside (c : Conversions) (env : Envelope) : Prop :=
  ∀ runId, env.runId.value = .str runId → ∃ rest, rest ≠ [] ∧ spelled c env = some (("overlays" : PyStr) :: rest)

/-- The identifiers spell names below `overlays`, and when they differ neither list of names begins with the other. -/
structure Separate (c : Conversions) (eq : Json → Json → Bool) (env env' : Envelope) : Prop where
  inside : Inside c env
  inside' : Inside c env'
  apart : Differ eq env env' → ∀ l l', spelled c env = some l → spelled c env' = some l' → ¬ l <+: l' ∧ ¬ l' <+: l

theorem text_of_overlayDir (made : overlayDir c root env = some p) : ∃ runId, env.runId.value = .str runId := by
  unfold overlayDir overlayPath at made
  split at made
  · rename_i runId text
    exact ⟨runId, text⟩
  · cases made

theorem Inside.spelled_of_overlayDir (inside : Inside c env) (made : overlayDir c root env = some p) :
    ∃ rest, rest ≠ [] ∧ spelled c env = some (("overlays" : PyStr) :: rest) ∧ p = root ++ ("overlays" : PyStr) :: rest := by
  obtain ⟨runId, text⟩ := text_of_overlayDir made
  obtain ⟨rest, some_, spells⟩ := inside runId text
  rw [overlayDir_of_spelled spells] at made
  exact ⟨rest, some_, spells, (Option.some.inj made).symm⟩

theorem Inside.below (inside : Inside c env) (made : overlayDir c root env = some p) : Below root p := by
  obtain ⟨rest, some_, -, rfl⟩ := inside.spelled_of_overlayDir made
  refine ⟨?_, fun same => some_ ?_⟩
  · refine ⟨rest, ?_⟩
    rw [overlaysDir, List.append_assoc]
    rfl
  · rw [overlaysDir] at same
    exact (List.cons.inj (List.append_cancel_left same)).2

theorem inside_of_below (below : ∀ root p, overlayDir c root env = some p → Below root p) : Inside c env := by
  intro runId text
  cases spells : spelled c env with
  | none =>
    obtain ⟨root, p, made, outside⟩ := exists_root_of_spelled_none text spells
    exact absurd (below root p made).1 outside
  | some l =>
    obtain ⟨⟨rest, rfl⟩, other⟩ := below [] l (overlayDir_of_spelled spells)
    refine ⟨rest, ?_, rfl⟩
    rintro rfl
    exact other (List.append_nil _)

theorem frames_of_apart {differ : Prop} (below : ∀ p, overlayDir c root env = some p → Below root p)
    (apart : differ → ∀ p p', overlayDir c root env = some p → overlayDir c root env' = some p' →
      ¬ p <+: p' ∧ ¬ p' <+: p) : Frames c root differ env env' := by
  intro p made progress item fs q changed
  have inside := content_writeOne changed
  refine ⟨(below p made).1.trans inside, fun differ p' made' inside' => ?_⟩
  obtain ⟨first, second⟩ := apart differ p p' made made'
  rcases List.prefix_or_prefix_of_prefix inside inside' with h | h
  · exact first h
  · exact second h

/-- The overlays of two executions are isolated below every root exactly when their identifiers spell separate names. -/
theorem isolated_iff : (∀ root, Isolated c eq root env env') ↔ Separate c eq env env' := by
  constructor
  · intro isolated
    refine ⟨inside_of_below fun root => (isolated root).below, inside_of_below fun root => (isolated root).below', ?_⟩
    intro differ l l' spells spells'
    exact (isolated []).apart differ l l' (overlayDir_of_spelled spells) (overlayDir_of_spelled spells')
  · intro separate root
    have apart (differ : Differ eq env env') (p p' : List PyStr) (made : overlayDir c root env = some p)
        (made' : overlayDir c root env' = some p') : ¬ p <+: p' ∧ ¬ p' <+: p := by
      obtain ⟨rest, -, spells, rfl⟩ := separate.inside.spelled_of_overlayDir made
      obtain ⟨rest', -, spells', rfl⟩ := separate.inside'.spelled_of_overlayDir made'
      rw [List.prefix_append_right_inj, List.prefix_append_right_inj]
      exact separate.apart differ _ _ spells spells'
    have below (p : List PyStr) (made : overlayDir c root env = some p) := separate.inside.below made
    have below' (p : List PyStr) (made : overlayDir c root env' = some p) := separate.inside'.below made
    refine ⟨below, below', apart, frames_of_apart below apart, frames_of_apart below' fun differ p p' made made' => ?_⟩
    exact (apart differ p' p made' made).symm

/-! ## Plain identifiers -/

/-- The identifiers name one directory in another one: the run id is a text, and neither it nor the name behind it has a
separator or is a dot name. -/
structure Plain (c : Conversions) (env : Envelope) (runId : PyStr) : Prop where
  text : env.runId.value = .str runId
  run : .scalar '/' ∉ runId ∧ runId ≠ (".") ∧ runId ≠ ("..")
  dir : .scalar '/' ∉ dirName c env

def sampleSlot (slotId fence : PyStr) (generation : ℕ) (slot : slotId ≠ []) (fenced : fence ≠ []) : Envelope where
  runId := .ofText "run" (by decide +kernel)
  slotId := .ofText slotId slot
  issueId := .ofText "i" ne_nil_i
  commit := .ofText "c" ne_nil_c
  generation := generation
  fence := .ofText fence fenced
  sourceHash := .ofText "h" ne_nil_h
  toolHash := .ofText "h" ne_nil_h
  configHash := .ofText "h" ne_nil_h
  contractHash := .ofText "h" ne_nil_h
  maxOperations := 1
  generation_nonneg := Int.natCast_nonneg _
  maxOperations_pos := Int.zero_lt_one

/-- Different identifiers spell the same name. -/
theorem not_isolated : ¬ ∀ (env env' : Envelope) (root : List PyStr), Isolated sampleConversions Json.pyEq root env env' := by
  intro isolated
  have both := isolated (sampleSlot "a-g1-2" "c" 3 (by decide) (by decide)) (sampleSlot "a" "2-g3-c" 1 (by decide) (by decide)) []
  refine (both.apart ?_ [("overlays" : PyStr), "run", "a-g1-2-g3-c"] [("overlays" : PyStr), "run", "a-g1-2-g3-c"] ?_ ?_).1
    (List.prefix_refl _)
  · rintro ⟨-, -, generation, -⟩
    cases generation
  · decide +kernel
  · decide +kernel

end Slots

end SimplicioFast
