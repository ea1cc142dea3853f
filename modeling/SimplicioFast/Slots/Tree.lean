import SimplicioFast.Lib.FileTree
import SimplicioFast.Slots.Overlay

/-!
# What an execution leaves behind

An execution that starts in an empty root makes the directory of its overlay, puts its files there, and stores its receipt
beside it.  When the identifiers lead down from `overlays` and no target of a write lies on another, all of this succeeds,
and what is in the overlay is known of every path.
-/

namespace SimplicioFast

namespace Slots

open Crash FileSystem

variable {c : Conversions} {root overlay path p q : List PyStr} {env : Envelope} {fs : FileSystem}
  {files : List (List PyStr × Bytes)} {b : Bytes} {m : JsonObject} {names : List PyStr} {name : PyStr}

/-! ## Directories -/

theorem overlaysDir_prefix_of_inside (above : q <+: p) (inside : overlaysDir root <+: p) (below : root <+: q)
    (other : q ≠ root) : overlaysDir root <+: q := by
  refine List.prefix_of_prefix_length_le inside above ?_
  have less : root.length < q.length := lt_of_le_of_ne below.length_le fun same => other (below.eq_of_length same).symm
  rw [overlaysDir, List.length_append, List.length_singleton]
  omega

theorem root_prefix_overlaysDir : root <+: overlaysDir root := List.prefix_append _ _

theorem overlaysDir_ne_root : overlaysDir root ≠ root := by
  intro same
  have lengths := congrArg List.length same
  rw [overlaysDir, List.length_append, List.length_singleton] at lengths
  omega

theorem root_prefix_receiptsDir : root <+: receiptsDir root := List.prefix_append _ _

theorem not_overlaysDir_prefix {names : List PyStr} : ¬ overlaysDir root <+: receiptsDir root ++ names := by
  rw [overlaysDir, receiptsDir, List.append_assoc, List.prefix_append_right_inj, List.singleton_append,
    List.cons_prefix_cons]
  exact fun both => absurd both.1 (by decide)

/-! ## The overlay -/

def Apart (p q : List PyStr) : Prop := ¬ p <+: q ∧ ¬ q <+: p

/-- What is at a path in the overlay when these files are in it. -/
def placedAt (overlay : List PyStr) (files : List (List PyStr × Bytes)) (q : List PyStr) : Option Node :=
  match files.find? fun f => f.1 = q with
  | some f => some (.file f.2)
  | none => if q = overlay ∨ ∃ f ∈ files, q <+: f.1 then some .dir else none

/-- The overlay holds these files and nothing else, and nothing else was put below the root. -/
structure Tree (root overlay : List PyStr) (files : List (List PyStr × Bytes)) (fs : FileSystem) : Prop where
  closed : fs.Closed
  dir : fs.IsDir overlay
  inside : ∀ q, overlay <+: q → fs.get? q = placedAt overlay files q
  outside : ∀ q, root <+: q → q ≠ root → ¬ overlaysDir root <+: q → fs.get? q = none

theorem placedAt_of_apart (apart : ∀ f ∈ files, Apart f.1 path) (above : q <+: path) :
    placedAt overlay files q = if q = overlay ∨ ∃ f ∈ files, q <+: f.1 then some .dir else none := by
  have absent : files.find? (fun f => f.1 = q) = none := by
    refine List.find?_eq_none.2 fun f mem same => (apart f mem).1 ?_
    rw [of_decide_eq_true same]
    exact above
  rw [placedAt, absent]

theorem placedAt_append (apart : ∀ f ∈ files, Apart f.1 path) : placedAt overlay (files ++ [(path, b)]) q =
    if q = path then some (.file b) else if q <+: path then some .dir else placedAt overlay files q := by
  by_cases same : q = path
  · subst same
    have absent : files.find? (fun f => f.1 = q) = none :=
      List.find?_eq_none.2 fun f mem same => (apart f mem).1 (of_decide_eq_true same ▸ List.prefix_refl _)
    have found : [(q, b)].find? (fun f => f.1 = q) = some (q, b) := List.find?_cons_of_pos (decide_eq_true rfl)
    rw [if_pos rfl, placedAt, List.find?_append, absent, Option.none_or, found]
  · have other : [(path, b)].find? (fun f => f.1 = q) = none :=
      List.find?_eq_none.2 fun f mem same' => same (by cases List.mem_singleton.1 mem; exact (of_decide_eq_true same').symm)
    rw [if_neg same]
    by_cases above : q <+: path
    · have absent : files.find? (fun f => f.1 = q) = none := by
        refine List.find?_eq_none.2 fun f mem same => (apart f mem).1 ?_
        rw [of_decide_eq_true same]
        exact above
      rw [if_pos above, placedAt, List.find?_append, absent, Option.none_or, other]
      exact if_pos (.inr ⟨_, List.mem_append_right _ (List.mem_singleton_self _), above⟩)
    · rw [if_neg above, placedAt, placedAt, List.find?_append, other, Option.or_none]
      have each : (∃ f ∈ files ++ [(path, b)], q <+: f.1) ↔ ∃ f ∈ files, q <+: f.1 := by
        simp [List.mem_append, or_and_right, exists_or, above]
      simp only [each]

theorem Tree.write (tree : Tree root overlay files fs) (below : overlaysDir root <+: overlay) (inside : overlay <+: path)
    (strict : path ≠ overlay) (apart : ∀ f ∈ files, Apart f.1 path) :
    ∃ fs₁, Returns (makedirs SlotRaised.os path.dropLast) fs ⟨⟩ fs₁ ∧
      Returns (FileSystem.write SlotRaised.os path b) fs₁ ⟨⟩ (fs₁.set path (.file b)) ∧
        Tree root overlay (files ++ [(path, b)]) (fs₁.set path (.file b)) := by
  have longer : overlay.length < path.length :=
    lt_of_le_of_ne inside.length_le fun same => strict (inside.eq_of_length same).symm
  have short (q : List PyStr) : q <+: path.dropLast ↔ q <+: path ∧ q ≠ path := by
    constructor
    · intro above
      refine ⟨above.trans (List.dropLast_prefix _), ?_⟩
      rintro rfl
      have := above.length_le
      rw [List.length_dropLast] at this
      omega
    · rintro ⟨above, other⟩
      refine List.prefix_of_prefix_length_le above (List.dropLast_prefix _) ?_
      have := lt_of_le_of_ne above.length_le fun same => other (above.eq_of_length same)
      rw [List.length_dropLast]
      omega
  have top : fs.IsDir [] := tree.closed.isDir_of_above tree.dir List.nil_prefix
  have free (q : List PyStr) (above : q <+: path.dropLast) : fs.Free q := by
    have above := ((short q).1 above).1
    rcases List.prefix_or_prefix_of_prefix above inside with up | down
    · exact .inr (tree.closed.isDir_of_above tree.dir up)
    · rw [Free, IsDir, tree.inside q down, placedAt_of_apart apart above]
      split
      · exact .inr rfl
      · exact .inl rfl
  obtain ⟨fs₁, made, closed, found⟩ := returns_makedirs SlotRaised.os tree.closed top free
  have parent : fs₁.IsDir path.dropLast := by
    rw [IsDir, found, if_pos (List.prefix_refl _)]
  have blank : ¬ fs₁.IsDir path := by
    rw [IsDir, found, if_neg (fun above => ((short path).1 above).2 rfl), tree.inside path inside,
      placedAt_of_apart apart (List.prefix_refl _), if_neg]
    · exact fun same => by cases same
    · rintro (same | ⟨f, mem, above⟩)
      · exact strict same
      · exact (apart f mem).2 above
  refine ⟨fs₁, made, returns_write SlotRaised.os blank parent b, closed.set_file blank parent b, ?_, ?_, ?_⟩
  · rw [IsDir, Dict.get?_set_of_ne _ _ strict.symm, found, if_pos ((short overlay).2 ⟨inside, strict.symm⟩)]
  · intro q within
    rw [Dict.get?_set, placedAt_append apart, found]
    by_cases same : q = path
    · rw [if_pos same, if_pos same]
    · rw [if_neg same, if_neg same]
      by_cases above : q <+: path
      · rw [if_pos above, if_pos ((short q).2 ⟨above, same⟩)]
      · rw [if_neg above, if_neg (fun h => above ((short q).1 h).1), tree.inside q within]
  · intro q under other outside
    have far : ¬ q <+: path := fun above =>
      outside (overlaysDir_prefix_of_inside above (below.trans inside) under other)
    rw [Dict.get?_set_of_ne, found, if_neg (fun h => far ((short q).1 h).1), tree.outside q under other outside]
    rintro rfl
    exact far (List.prefix_refl _)

/-! ## The directory of an overlay -/

/-- Nothing is below the root, and it can be made. -/
structure Fresh (root : List PyStr) (fs : FileSystem) : Prop where
  closed : fs.Closed
  top : fs.IsDir []
  free : ∀ q, q <+: root → fs.Free q
  empty : ∀ q, root <+: q → q ≠ root → fs.get? q = none

def overlayNames (c : Conversions) (env : Envelope) (runId : PyStr) : List PyStr :=
  ("overlays" : PyStr) :: (runId.splitOn (.scalar '/') ++ (dirName c env).splitOn (.scalar '/'))

/-- The identifiers lead down from `overlays`: the run id is a text, neither it nor the name behind it starts with a
separator, and no name is `..` or holds a NUL. -/
def Confined (c : Conversions) (env : Envelope) : Prop :=
  ∃ runId, env.runId.value = .str runId ∧ runId.head? ≠ some (.scalar '/') ∧ (dirName c env).head? ≠ some (.scalar '/') ∧
    ∀ name ∈ overlayNames c env runId, name ≠ ("..") ∧ .scalar '\x00' ∉ name

theorem overlayPath_of_relative (root : List PyStr) {runId : PyStr} (text : env.runId.value = .str runId)
    (run : runId.head? ≠ some (.scalar '/')) (dir : (dirName c env).head? ≠ some (.scalar '/')) :
    overlayPath c root env = .ok ⟨root, overlayNames c env runId⟩ := by
  have first : (⟨root, []⟩ : Joined).join "overlays" = ⟨root, ["overlays"]⟩ := by
    rw [Joined.join, if_neg (by decide), splitOn_overlays]
    rfl
  unfold overlayPath
  rw [text]
  dsimp only
  rw [first, Joined.join, if_neg dir, Joined.join, if_neg run, List.append_assoc]
  rfl

theorem climb_of_ne (up : name ≠ ("..")) : climb p name = p ∨ climb p name = p ++ [name] := by
  rw [climb_eq, if_neg up]
  split
  · exact .inl rfl
  · exact .inr rfl

theorem prefix_climb (up : name ≠ ("..")) : p <+: climb p name := by
  rcases climb_of_ne (p := p) up with same | same
  · rw [same]
  · rw [same]
    exact List.prefix_append _ _

theorem prefix_foldl_climb (down : ∀ name ∈ names, name ≠ ("..")) : p <+: names.foldl climb p := by
  induction names generalizing p with
  | nil => exact List.prefix_refl _
  | cons name names ih =>
    obtain ⟨first, down⟩ := List.forall_mem_cons.1 down
    exact (prefix_climb first).trans (ih down)

theorem between_of_mem_scanl (down : ∀ name ∈ names, name ≠ ("..")) (mem : q ∈ names.scanl climb p) :
    p <+: q ∧ q <+: names.foldl climb p := by
  induction names generalizing p with
  | nil =>
    cases List.mem_singleton.1 mem
    exact ⟨List.prefix_refl _, List.prefix_refl _⟩
  | cons name names ih =>
    rw [List.scanl_cons] at mem
    rcases List.mem_cons.1 mem with rfl | mem
    · exact ⟨List.prefix_refl _, prefix_foldl_climb down⟩
    · obtain ⟨first, down⟩ := List.forall_mem_cons.1 down
      obtain ⟨below, above⟩ := ih down mem
      exact ⟨(prefix_climb first).trans below, above⟩

theorem scanl_eq_cons : names.scanl climb p = p :: (names.scanl climb p).tail := by
  cases names with
  | nil => rfl
  | cons name names => rw [List.scanl_cons, List.tail_cons]

theorem climbs_scanl {d : List PyStr → Prop} (down : ∀ name ∈ names, name ≠ ("..")) (here : d p) (above : d p.dropLast) :
    Climbs d (names.scanl climb p).tail := by
  induction names generalizing p d with
  | nil => trivial
  | cons name names ih =>
    obtain ⟨first, down⟩ := List.forall_mem_cons.1 down
    rw [List.scanl_cons, List.tail_cons, scanl_eq_cons]
    rcases climb_of_ne (p := p) first with same | same
    · rw [same]
      exact ⟨above, ih down (.inl here) (.inl above)⟩
    · rw [same]
      refine ⟨?_, ih down (.inr rfl) (.inl ?_)⟩
      · rw [List.dropLast_concat]
        exact here
      · rw [List.dropLast_concat]
        exact here

theorem getLast_mem_scanl (some_ : names ≠ []) : names.foldl climb p ∈ (names.scanl climb p).tail := by
  induction names generalizing p with
  | nil => exact absurd rfl some_
  | cons name names ih =>
    rw [List.scanl_cons, List.tail_cons, List.foldl_cons, scanl_eq_cons]
    cases names with
    | nil => exact List.mem_cons_self ..
    | cons next names => exact List.mem_cons_of_mem _ (ih (List.cons_ne_nil _ _))

theorem returns_prepare (fresh : Fresh root fs) (confined : Confined c env) :
    ∃ overlay fs', Returns (prepare c root env) fs overlay fs' ∧ overlayDir c root env = some overlay ∧
      overlaysDir root <+: overlay ∧ Tree root overlay [] fs' := by
  obtain ⟨runId, text, run, dir, names⟩ := confined
  have path := overlayPath_of_relative root text run dir
  obtain ⟨rest, listed⟩ : ∃ rest, overlayNames c env runId = ("overlays" : PyStr) :: rest := ⟨_, rfl⟩
  have down : ∀ name ∈ overlayNames c env runId, name ≠ ("..") := fun name mem => (names name mem).1
  have clean : (overlayNames c env runId).any (.scalar '\x00' ∈ ·) = false :=
    List.any_eq_false.2 fun name mem => by simpa using (names name mem).2
  have first : climb root ("overlays") = overlaysDir root := by
    rw [climb_eq, if_neg (by decide), if_neg (by decide)]
    rfl
  have steps : (overlayNames c env runId).scanl climb root = root :: rest.scanl climb (overlaysDir root) := by
    rw [listed, List.scanl_cons, first]
  have leads : (overlayNames c env runId).foldl climb root = rest.foldl climb (overlaysDir root) := by
    rw [listed, List.foldl_cons, first]
  have between {q : List PyStr} (mem : q ∈ rest.scanl climb (overlaysDir root)) :=
    between_of_mem_scanl (fun name mem => down name (listed ▸ List.mem_cons_of_mem _ mem)) mem
  obtain ⟨overlay, same⟩ : ∃ overlay, overlay = rest.foldl climb (overlaysDir root) := ⟨_, rfl⟩
  have below : overlaysDir root <+: overlay := same ▸ prefix_foldl_climb fun name mem =>
    down name (listed ▸ List.mem_cons_of_mem _ mem)
  obtain ⟨fs₁, base, closed₁, found₁⟩ := returns_makedirs SlotRaised.os fresh.closed fresh.top fresh.free
  have rootDir : fs₁.IsDir root := by
    rw [IsDir, found₁, if_pos (List.prefix_refl _)]
  have above : fs₁.IsDir root.dropLast := closed₁.isDir_of_above rootDir (List.dropLast_prefix _)
  have absent (q : List PyStr) (under : root <+: q) (other : q ≠ root) : fs₁.get? q = none := by
    rw [found₁, if_neg, fresh.empty q under other]
    exact fun inside => other (inside.eq_of_length_le under.length_le)
  have beneath {q : List PyStr} (inside : overlaysDir root <+: q) : root <+: q ∧ q ≠ root := by
    refine ⟨root_prefix_overlaysDir.trans inside, ?_⟩
    rintro rfl
    exact overlaysDir_ne_root (inside.eq_of_length_le root_prefix_overlaysDir.length_le)
  obtain ⟨fs₂, made, closed₂, found₂⟩ := returns_ensureDirs SlotRaised.os closed₁
    (climbs_scanl down rootDir above) fun q mem => by
      rw [steps, List.tail_cons] at mem
      obtain ⟨under, other⟩ := beneath (between mem).1
      exact .inl (absent q under other)
  have reached : overlay ∈ ((overlayNames c env runId).scanl climb root).tail := by
    rw [same, ← leads]
    exact getLast_mem_scanl (List.cons_ne_nil _ _)
  have resolved : (⟨root, overlayNames c env runId⟩ : Joined).resolve = overlay := by
    rw [same, ← leads]
    rfl
  refine ⟨overlay, fs₂, ?_, ?_, below, closed₂, ?_, ?_, ?_⟩
  · refine Returns.bind (Returns.read path) ?_
    dsimp only
    rw [clean, if_neg Bool.false_ne_true]
    refine base.bind (made.bind ?_)
    rw [resolved]
    exact Returns.pure _ _
  · rw [overlayDir, path]
    exact congrArg some resolved
  · rw [IsDir, found₂, if_pos reached]
  · intro q inside
    rw [found₂]
    obtain ⟨under, other⟩ := beneath (below.trans inside)
    have blank : placedAt overlay [] q = if q = overlay then some .dir else none := by
      simp [placedAt]
    rw [blank, steps, List.tail_cons, absent q under other]
    by_cases here : q = overlay
    · rw [steps, List.tail_cons] at reached
      rw [if_pos here, if_pos (here ▸ reached)]
    · rw [if_neg here, if_neg]
      intro mem
      exact here (((same ▸ (between mem).2 : q <+: overlay).eq_of_length_le inside.length_le))
  · intro q under other outside
    rw [found₂, steps, List.tail_cons, if_neg (fun mem => outside (between mem).1), absent q under other]

/-! ## One write -/

/-- Where an item goes, with its bytes. -/
def place (overlay : List PyStr) (item : PyStr × Bytes) : List PyStr × Bytes :=
  (((target overlay item.1).toOption).getD [], item.2)

theorem target_eq_ok (goes : target overlay name = .ok path) : overlay <+: path ∧ path ≠ overlay := by
  unfold target at goes
  split at goes
  · cases goes
  · dsimp only at goes
    split at goes
    · rename_i inside
      cases goes
      exact inside
    · cases goes

theorem returns_writeOne {item : PyStr × Bytes} {progress : Progress} (tree : Tree root overlay files fs)
    (below : overlaysDir root <+: overlay) (few : ((progress.operations + 1 : ℕ) : ℤ) ≤ env.maxOperations)
    (goes : ∃ path, target overlay item.1 = .ok path) (apart : ∀ f ∈ files, Apart f.1 (place overlay item).1) :
    ∃ fs', Returns (writeOne env overlay progress item) fs
      ⟨progress.operations + 1, progress.bytesWritten + item.2.length⟩ fs' ∧
        Tree root overlay (files ++ [place overlay item]) fs' := by
  obtain ⟨path, goes⟩ := goes
  have placed : place overlay item = (path, item.2) := by
    rw [place, goes]
    rfl
  rw [placed] at apart ⊢
  obtain ⟨inside, strict⟩ := target_eq_ok goes
  obtain ⟨fs₁, made, written, tree'⟩ := tree.write (b := item.2) below inside strict apart
  refine ⟨_, ?_, tree'⟩
  unfold writeOne
  rw [if_neg (by push_cast at few; omega)]
  exact Returns.bind (Returns.read goes) (made.bind (written.bind (Returns.pure _ _)))

/-! ## The receipt -/

theorem returns_record (m : JsonObject) (tree : Tree root overlay files fs) (below : overlaysDir root <+: overlay) :
    ∃ fs', Returns (record root env m) fs m fs' ∧ (∀ q, overlay <+: q → fs'.get? q = fs.get? q) ∧
      fs'.get? (receiptPath root env) = some (.file (receiptBytes m)) := by
  have dir : fs.IsDir root := tree.closed.isDir_of_above tree.dir (root_prefix_overlaysDir.trans below)
  have top : fs.IsDir [] := tree.closed.isDir_of_above tree.dir List.nil_prefix
  have absent (q : List PyStr) (under : receiptsDir root <+: q) : fs.get? q = none := by
    obtain ⟨names, rfl⟩ := under
    refine tree.outside _ (root_prefix_receiptsDir.trans (List.prefix_append _ _)) ?_ not_overlaysDir_prefix
    intro same
    have lengths := congrArg List.length same
    rw [receiptsDir, List.length_append, List.length_append, List.length_singleton] at lengths
    omega
  have free (q : List PyStr) (above : q <+: receiptsDir root) : fs.Free q := by
    rcases List.prefix_concat_iff.1 above with rfl | above
    · exact .inl (absent _ (List.prefix_refl _))
    · exact .inr (tree.closed.isDir_of_above dir above)
  obtain ⟨fs₁, made, closed₁, found₁⟩ := returns_makedirs SlotRaised.os tree.closed top free
  have inReceipts (name : PyStr) : fs₁.get? (receiptsDir root ++ [name]) = none := by
    rw [found₁, if_neg, absent _ (List.prefix_append _ _)]
    intro above
    have := above.length_le
    rw [List.length_append, List.length_singleton] at this
    omega
  have parent (name : PyStr) : fs₁.IsDir (receiptsDir root ++ [name]).dropLast := by
    rw [List.dropLast_concat, IsDir, found₁, if_pos (List.prefix_refl _)]
  have blank (name : PyStr) : ¬ fs₁.IsDir (receiptsDir root ++ [name]) := by
    rw [IsDir, inReceipts]
    exact fun same => by cases same
  have written := returns_write SlotRaised.os (blank (env.idempotencyKey ++ (".tmp" : PyStr)))
    (parent _) (receiptBytes m)
  have moved : Returns (rename SlotRaised.os (temporaryPath root env) (receiptPath root env))
      (fs₁.set (temporaryPath root env) (.file (receiptBytes m))) ⟨⟩
      (Dict.set ((fs₁.set (temporaryPath root env) (.file (receiptBytes m))).erase (temporaryPath root env))
        (receiptPath root env) (.file (receiptBytes m))) := by
    refine returns_rename SlotRaised.os (b := receiptBytes m) (Dict.get?_set_self _ _ _) ?_ ?_
    · rw [IsDir, Dict.get?_set]
      split
      · exact fun same => by cases same
      · exact blank _
    · rw [receiptPath, List.dropLast_concat, IsDir, Dict.get?_set_of_ne, found₁, if_pos (List.prefix_refl _)]
      intro same
      have lengths := congrArg List.length same
      rw [temporaryPath, List.length_append, List.length_singleton] at lengths
      omega
  refine ⟨_, made.bind (written.bind (moved.bind (Returns.pure _ _))), fun q inside => ?_, Dict.get?_set_self _ _ _⟩
  have far (names : List PyStr) : q ≠ receiptsDir root ++ names := by
    rintro rfl
    exact not_overlaysDir_prefix (below.trans inside)
  have temporary : q ≠ temporaryPath root env := far _
  have stored : q ≠ receiptPath root env := far _
  rw [Dict.get?_set_of_ne _ _ stored, Dict.get?_erase, if_neg temporary, Dict.get?_set_of_ne _ _ temporary, found₁, if_neg]
  intro above
  have inside := (below.trans inside).trans above
  rw [← List.append_nil (receiptsDir root)] at inside
  exact not_overlaysDir_prefix inside

end Slots

end SimplicioFast
