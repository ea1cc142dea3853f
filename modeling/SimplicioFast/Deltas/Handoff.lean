import SimplicioFast.Deltas.Accepted

/-!
# The handoff of a delta

`handoff` takes a delta, checks it, and reports whether base and delta have the hashes of another snapshot.  When
paths are given it compares the composed hashes with the files of the worktree, and the other snapshot has no part in
the verdict: it is right exactly when the files agree with that snapshot too (`parity_sound_iff`).

The validated base is given with what is read of its snapshot, and so is the number of symbols of the effective
snapshot.  The times of the report are left out.
-/

namespace SimplicioFast

namespace Deltas

def HANDOFF_SCHEMA : PyStr := "simplicio.fast.handoff/v1"

/-- A validated base, with what `handoff` reads of it and of its snapshot. -/
structure HandoffBase extends Base where
  sourceTreeSha256 : PyStr
  /-- `snapshot_path.stat().st_size` -/
  mappedBytes : ℕ
  /-- `len(canonical.files())` -/
  fileCount : ℕ

/-- The snapshot that is opened at `parity_snapshot`. -/
structure ParitySnapshot where
  files : List (PyStr × Bytes)
  sha256 : PyStr

/-- The hashes of the files of a snapshot that are in the scope. -/
def ParitySnapshot.hashes (snapshot : ParitySnapshot) (scopedPaths : Option (List PyStr)) : Dict PyStr PyStr :=
  snapshot.files.foldl (fun found e =>
    if scopedPaths.all (e.1 ∈ ·) then found.set e.1 (PyStr.ofChars (Bytes.hex e.2)) else found) .empty

/-- The entries of `parity_result`. -/
structure ParityResult where
  sourceTreeSha256 : PyStr
  targetTreeSha256 : PyStr
  scope : PyStr
  canonicalFileCount : ℕ
  composedSymbolCount : Option ℕ
  composedSymbolCountReason : Option PyStr

/-- The report of `handoff`. -/
structure Handoff where
  schema : PyStr
  status : PyStr
  baseGeneration : PyStr
  deltaGeneration : PyStr
  baseCommit : PyStr
  configFingerprint : PyStr
  snapshotHash : PyStr
  snapshotSha256 : PyStr
  deltaSha256 : PyStr
  mappedBytes : ℕ
  paritySnapshotHash : Option PyStr
  parity : Bool
  parityResult : ParityResult
  changedPaths : List PyStr
  filesParsed : ℕ
  cacheReuse : ℕ

/-- `a == b`, for dictionaries of hashes. -/
def equalHashes (a b : Dict PyStr PyStr) : Bool := (a.keys ++ b.keys).all fun p => a.get? p = b.get? p

def hashesJson (hashes : Dict PyStr PyStr) : Json := .obj (hashes.entries.map fun e => (e.1, .str e.2))

section

variable (tree : Worktree) (files : DeltaFiles) (base : Base) (baseGeneration worktreeId : PyStr) (config : Option PyStr)

/-- The delta of `handoff`: the one of the generation, if it is given, or a new one. -/
def takeDelta (parse : PyStr → Bytes → Except DeltaRaised (List JsonObject)) (createdAt : PyStr)
    (scopedPaths : Option (List PyStr)) : Option PyStr → Except DeltaRaised (Delta × DeltaFiles)
  | some (c :: generation) => do
    let delta ← loadDelta files worktreeId (c :: generation)
    return (delta, files)
  | _ => createDelta parse createdAt tree files base baseGeneration worktreeId scopedPaths config

def unchangedDelta (scopedPaths : Option (List PyStr)) (delta : Delta) : Bool :=
  scopedPaths.isSome && delta.changed.entries.isEmpty

/-- The checks of `handoff` on its delta. -/
def checkHandoff (delta : Delta) : Option (List PyStr) → Except DeltaRaised Unit
  | none => do
    let _ ← composeDelta tree files base baseGeneration worktreeId delta.deltaGeneration config none
    return ()
  | some scopedPaths => do
    validateDeltaBase baseGeneration delta base config
    if unchangedDelta (some scopedPaths) delta then return ()
    else validateComposedSources tree base delta (some scopedPaths)

/-- `merged`. -/
def mergedHashes (scopedPaths : Option (List PyStr)) (delta : Delta) : Dict PyStr PyStr :=
  if unchangedDelta scopedPaths delta then base.sourceHashes else composedSourceHashes base delta.changed

/-- `target`. -/
def targetHashes (scopedPaths : Option (List PyStr)) : Option ParitySnapshot → Dict PyStr PyStr
  | none => currentHashes tree scopedPaths
  | some candidate => candidate.hashes scopedPaths

end

def parity (scopedPaths : Option (List PyStr)) (current merged target : Dict PyStr PyStr) : Bool :=
  match scopedPaths with
  | none => equalHashes merged target
  | some scopedPaths => scopedPaths.all fun relative => current.get? relative = merged.get? relative

section

variable (symbols : Delta → ℕ) (tree : Worktree) (base : HandoffBase) (baseGeneration : PyStr)
  (scopedPaths : Option (List PyStr)) (snapshot : Option ParitySnapshot) (delta : Delta)

/-- `source_tree_sha256`. -/
def sourceTree : Except DeltaRaised PyStr :=
  if unchangedDelta scopedPaths delta then .ok base.sourceTreeSha256
  else digest (hashesJson (mergedHashes base.toBase scopedPaths delta))

/-- The value of `parity_result`. -/
def parityResult (sourceTreeSha256 targetTreeSha256 : PyStr) : ParityResult where
  sourceTreeSha256
  targetTreeSha256
  scope := if scopedPaths.isSome then "explicit_changed_paths" else "full_source_tree"
  canonicalFileCount := if scopedPaths.isSome then base.sourceHashes.entries.length else base.fileCount
  composedSymbolCount := if scopedPaths.isSome then none else some (symbols delta)
  composedSymbolCountReason :=
    if unchangedDelta scopedPaths delta then some "unchanged_delta_not_materialized"
    else if scopedPaths.isSome then some "scoped_query_not_materialized" else none

/-- The value that `handoff` returns. -/
def report (result : ParityResult) : Handoff :=
  let parity := parity scopedPaths (currentHashes tree scopedPaths) (mergedHashes base.toBase scopedPaths delta)
    (targetHashes tree scopedPaths snapshot)
  { schema := HANDOFF_SCHEMA
    status := if parity then "pass" else "parity_mismatch"
    baseGeneration
    deltaGeneration := delta.deltaGeneration
    baseCommit := base.commit
    configFingerprint := base.configFingerprint
    snapshotHash := base.snapshotSha256
    snapshotSha256 := base.snapshotSha256
    deltaSha256 := delta.deltaSha256
    mappedBytes := base.mappedBytes
    paritySnapshotHash := snapshot.map (·.sha256)
    parity
    parityResult := result
    changedPaths := PyStr.sortedSet delta.changed.keys
    filesParsed := delta.changed.values.countP fun record => !tombstone record
    cacheReuse :=
      if unchangedDelta scopedPaths delta then base.sourceHashes.entries.length
      else base.sourceHashes.keys.countP fun p => (delta.changed.get? p).isNone }

end

def handoff (parse : PyStr → Bytes → Except DeltaRaised (List JsonObject)) (symbols : Delta → ℕ) (createdAt : PyStr)
    (tree : Worktree) (files : DeltaFiles) (base : HandoffBase) (baseGeneration worktreeId : PyStr)
    (changedPaths : Option (List PyStr)) (deltaGeneration config : Option PyStr) (snapshot : Option ParitySnapshot) :
    Except DeltaRaised (Handoff × DeltaFiles) := do
  let scopedPaths ← scope changedPaths
  let (delta, files) ← takeDelta tree files base.toBase baseGeneration worktreeId config parse createdAt scopedPaths
    deltaGeneration
  checkHandoff tree files base.toBase baseGeneration worktreeId config delta scopedPaths
  let sourceTreeSha256 ← sourceTree base scopedPaths delta
  let targetTreeSha256 ← digest (hashesJson (targetHashes tree scopedPaths snapshot))
  let result := parityResult symbols base scopedPaths delta sourceTreeSha256 targetTreeSha256
  return (report tree base baseGeneration scopedPaths snapshot delta result, files)

variable {parse : PyStr → Bytes → Except DeltaRaised (List JsonObject)} {symbols : Delta → ℕ} {createdAt : PyStr}
  {tree : Worktree} {files files' : DeltaFiles} {base : HandoffBase} {baseGeneration worktreeId p : PyStr}
  {changedPaths s : Option (List PyStr)} {deltaGeneration config : Option PyStr} {snapshot : ParitySnapshot} {d : Delta}
  {h : Handoff}

/-! ## The verdict -/

/-- The paths that a handoff is about: all of them, when none are given. -/
def InScope : Option (List PyStr) → PyStr → Prop
  | none, _ => True
  | some paths, p => p ∈ paths

/-- The digest of the source at a path of the worktree. -/
def digestAt (tree : Worktree) (p : PyStr) : Option PyStr := (tree.resolve p).2.map hashSource

theorem equalHashes_iff {a b : Dict PyStr PyStr} : equalHashes a b = true ↔ ∀ p, a.get? p = b.get? p := by
  unfold equalHashes
  rw [List.all_eq_true]
  constructor
  · intro equal p
    by_cases mem : p ∈ a.keys ++ b.keys
    · exact of_decide_eq_true (equal p mem)
    · rw [List.mem_append, not_or] at mem
      rw [(Dict.get?_eq_none_iff _ _).2 mem.1, (Dict.get?_eq_none_iff _ _).2 mem.2]
  · exact fun equal p _ => decide_eq_true (equal p)

theorem get?_currentHashes {paths : List PyStr} (mem : p ∈ paths) :
    (currentHashes tree (some paths)).get? p = digestAt tree p := by
  have all (l : List PyStr) (found : Dict PyStr PyStr) : (l.foldl (fun found relative =>
      (tree.resolve relative).2.elim found fun contents => found.set relative (hashSource contents)) found).get? p =
        if p ∈ l then (digestAt tree p).or (found.get? p) else found.get? p := by
    induction l generalizing found with
    | nil => rfl
    | cons a l ih =>
      rw [List.foldl_cons, ih]
      by_cases here : p = a
      · subst here
        rw [if_pos List.mem_cons_self]
        unfold digestAt
        cases (tree.resolve p).2 with
        | none => simp only [Option.elim_none, Option.map_none, Option.none_or, ite_self]
        | some contents => simp only [Option.elim_some, Option.map_some, Option.some_or, Dict.get?_set_self, ite_self]
      · have same : ((tree.resolve a).2.elim found fun contents =>
            found.set a (hashSource contents)).get? p = found.get? p := by
          cases (tree.resolve a).2 with
          | none => rfl
          | some contents => exact Dict.get?_set_of_ne _ _ here
        rw [same]
        simp only [List.mem_cons, here, false_or]
  have folded : currentHashes tree (some paths) = paths.foldl (fun found relative =>
      (tree.resolve relative).2.elim found fun contents => found.set relative (hashSource contents)) .empty := by
    show paths.foldl _ _ = _
    congr 1
    funext found relative
    cases (tree.resolve relative).2 <;> rfl
  rw [folded, all paths .empty, if_pos mem, Dict.get?_empty, Option.or_none]

theorem mergedHashes_eq (base : Base) (s : Option (List PyStr)) (d : Delta) :
    mergedHashes base s d = composedSourceHashes base d.changed := by
  unfold mergedHashes unchangedDelta
  split_ifs with unchanged
  · rw [Bool.and_eq_true, List.isEmpty_iff] at unchanged
    rw [composedSourceHashes, unchanged.2]
    rfl
  · rfl

theorem status_eq_pass_iff
    (given : scope changedPaths = .ok s)
    (taken : takeDelta tree files base.toBase baseGeneration worktreeId config parse createdAt s deltaGeneration =
      .ok (d, files'))
    (ran : handoff parse symbols createdAt tree files base baseGeneration worktreeId changedPaths deltaGeneration config
      (some snapshot) = .ok (h, files')) :
    h.status = "pass" ↔ parity s (currentHashes tree s) (composedSourceHashes base.toBase d.changed)
      (snapshot.hashes s) = true := by
  obtain ⟨s', again, ran⟩ := bind_ok.1 ran
  cases given.symm.trans again
  obtain ⟨pair, again, ran⟩ := bind_ok.1 ran
  cases taken.symm.trans again
  obtain ⟨-, -, ran⟩ := bind_ok.1 ran
  obtain ⟨source, -, ran⟩ := bind_ok.1 ran
  obtain ⟨target, -, ran⟩ := bind_ok.1 ran
  have status := congrArg Handoff.status (congrArg Prod.fst (Except.ok.inj ran))
  rw [← status, ← mergedHashes_eq]
  unfold report
  dsimp only
  split_ifs with equal
  · exact iff_of_true rfl equal
  · exact iff_of_false (by decide) equal

theorem parity_some_iff {paths : List PyStr} {merged target : Dict PyStr PyStr} :
    parity (some paths) (currentHashes tree (some paths)) merged target = true ↔
      ∀ p ∈ paths, digestAt tree p = merged.get? p := by
  unfold parity
  rw [List.all_eq_true]
  exact forall₂_congr fun p mem => by rw [get?_currentHashes mem, decide_eq_true_eq]

/-- A handoff that passes has the hashes of the parity snapshot on every path in scope exactly when no paths are given, or
the files of the worktree there, if they have the composed hashes, have those of the snapshot. -/
theorem parity_sound_iff (parse : PyStr → Bytes → Except DeltaRaised (List JsonObject)) (symbols : Delta → ℕ)
    (createdAt : PyStr) (tree : Worktree) (files files' : DeltaFiles) (base : HandoffBase) (baseGeneration worktreeId : PyStr)
    (changedPaths s : Option (List PyStr)) (deltaGeneration config : Option PyStr) (snapshot : ParitySnapshot) (d : Delta)
    (h : Handoff) (given : scope changedPaths = .ok s)
    (taken : takeDelta tree files base.toBase baseGeneration worktreeId config parse createdAt s deltaGeneration =
      .ok (d, files'))
    (ran : handoff parse symbols createdAt tree files base baseGeneration worktreeId changedPaths deltaGeneration config
      (some snapshot) = .ok (h, files')) :
    (h.status = "pass" → ∀ p, InScope s p →
        (composedSourceHashes base.toBase d.changed).get? p = (snapshot.hashes none).get? p) ↔
      s = none ∨ ((∀ p, InScope s p → digestAt tree p = (composedSourceHashes base.toBase d.changed).get? p) →
        ∀ p, InScope s p → digestAt tree p = (snapshot.hashes none).get? p) := by
  rw [status_eq_pass_iff given taken ran]
  cases s with
  | none => exact iff_of_true (fun equal p _ => equalHashes_iff.1 equal p) (.inl rfl)
  | some paths =>
    rw [parity_some_iff, or_iff_right (by simp)]
    exact forall_congr' fun agree => forall₂_congr fun p mem => by rw [agree p mem]

/-! ## A file that the parity snapshot does not have -/

/-- A worktree with one file, which is empty. -/
def oneFile : Worktree where
  sources := Dict.empty.set "a.py" []
  resolve p := (true, if p = "a.py" then some [] else none)

def oneFileBase : HandoffBase where
  toBase := { emptyBase with sourceHashes := Dict.empty.set "a.py" (hashSource []) }
  sourceTreeSha256 := PyStr.ofChars (List.replicate 64 'c')
  mappedBytes := 0
  fileCount := 1

def noFiles : ParitySnapshot := ⟨[], PyStr.ofChars (List.replicate 64 'd')⟩

def sameFile : ParitySnapshot := ⟨[("a.py", Sha256.digest [])], PyStr.ofChars (List.replicate 64 'e')⟩

theorem exists_handoff (snapshot : ParitySnapshot)
    (plain : ∃ sha, digest (hashesJson (snapshot.hashes (some ["a.py"]))) = .ok sha) : ∃ d files' h,
    takeDelta oneFile .empty oneFileBase.toBase emptyGeneration "w" none noSymbols "now" (some ["a.py"]) none =
        .ok (d, files') ∧
      handoff noSymbols (fun _ => 0) "now" oneFile .empty oneFileBase emptyGeneration "w" (some ["a.py"]) none none
        (some snapshot) = .ok (h, files') ∧ d.changed = .empty ∧ h.status = "pass" := by
  have noRecords (n : Fin 2048) : ¬ (changedJson .empty).HasSurrogate n := by
    show ¬ Json.HasSurrogate n (.obj [])
    simp only [Json.HasSurrogate, Json.FieldsHaveSurrogate, not_false_eq_true]
  obtain ⟨identity, generation, d, document, rfl, named, made, published, same⟩ :=
    exists_made oneFileBase.sourceHashes noRecords nofun
  have given : scope (some ["a.py"]) = .ok (some ["a.py"]) := by decide +kernel
  have unchanged : change noSymbols oneFileBase.toBase (Dict.empty.set "a.py" []) .empty "a.py" = .ok .empty := by
    have equal : oneFileBase.sourceHashes.get? "a.py" = some (hashSource []) := Dict.get?_set_self _ _ _
    unfold change recordOf
    rw [Dict.get?_set_self]
    dsimp only
    rw [if_pos equal]
    rfl
  have empty : d.changed = .empty := congrArg Identity.changed same
  have taken : takeDelta oneFile .empty oneFileBase.toBase emptyGeneration "w" none noSymbols "now" (some ["a.py"]) none =
      .ok (d, Dict.empty.set (d.worktreeId, d.deltaGeneration) document) := by
    refine bind_ok.2 ⟨(), by decide +kernel, bind_ok.2 ⟨(), rfl, ?_⟩⟩
    refine bind_ok.2 ⟨_, given, bind_ok.2 ⟨Dict.empty.set "a.py" [], rfl, ?_⟩⟩
    refine bind_ok.2 ⟨(), rfl, bind_ok.2 ⟨.empty, ?_, ?_⟩⟩
    · show [("a.py" : PyStr)].foldlM _ _ = _
      rw [List.foldlM_cons, unchanged]
      rfl
    · refine bind_ok.2 ⟨generation, named, bind_ok.2 ⟨d, made, ?_⟩⟩
      show publish .empty d = _
      exact bind_ok.2 ⟨document, published, rfl⟩
  have checked : checkHandoff oneFile (Dict.empty.set (d.worktreeId, d.deltaGeneration) document) oneFileBase.toBase
      emptyGeneration "w" none d (some ["a.py"]) = .ok () := by
    refine bind_ok.2 ⟨(), belongs_iff.2 ?_, ?_⟩
    · have entries (f : Identity → PyStr) := congrArg f same
      exact ⟨entries (·.baseGeneration), entries (·.baseCommit), entries (·.baseConfigFingerprint), rfl,
        entries (·.baseSchema), entries (·.baseSnapshotSha256)⟩
    · rw [unchangedDelta, empty]
      rfl
  obtain ⟨sha, plain⟩ := plain
  have source : sourceTree oneFileBase (some ["a.py"]) d = .ok oneFileBase.sourceTreeSha256 := by
    rw [sourceTree, unchangedDelta, empty]
    rfl
  have ran : handoff noSymbols (fun _ => 0) "now" oneFile .empty oneFileBase emptyGeneration "w" (some ["a.py"]) none none
      (some snapshot) = .ok (_, Dict.empty.set (d.worktreeId, d.deltaGeneration) document) :=
    bind_ok.2 ⟨_, given, bind_ok.2 ⟨_, taken, bind_ok.2 ⟨_, checked,
      bind_ok.2 ⟨_, source, bind_ok.2 ⟨sha, plain, rfl⟩⟩⟩⟩⟩
  refine ⟨d, _, _, taken, ran, empty, (status_eq_pass_iff given taken ran).2 (parity_some_iff.2 fun p mem => ?_)⟩
  rw [List.mem_singleton.1 mem, empty]
  exact (Dict.get?_set_self _ _ _).symm

/-- The verdict is right for a snapshot with the same file. -/
theorem parity_sound_iff_same : ∃ (d : Delta) (files' : DeltaFiles) (h : Handoff),
    handoff noSymbols (fun _ => 0) "now" oneFile .empty oneFileBase emptyGeneration "w" (some ["a.py"]) none none
        (some sameFile) = .ok (h, files') ∧
      (h.status = "pass" → ∀ p, InScope (some ["a.py"]) p →
        (composedSourceHashes oneFileBase.toBase d.changed).get? p = (sameFile.hashes none).get? p) := by
  have plain (n : Fin 2048) : ¬ (hashesJson (sameFile.hashes (some ["a.py"]))).HasSurrogate n := by
    show ¬ Json.HasSurrogate n (.obj [("a.py", .str (hashSource []))])
    simp only [hashSource, Json.HasSurrogate, Json.FieldsHaveSurrogate, Json.FieldHasSurrogate,
      Json.surrogate_notMem_ofChars, or_self, not_false_eq_true]
  obtain ⟨text, canonical⟩ := encode_isSome_of_plain plain
  obtain ⟨d, files', h, taken, ran, -, -⟩ := exists_handoff sameFile ⟨_, digest_eq_ok_iff.2 ⟨text, canonical, rfl⟩⟩
  refine ⟨d, files', h, ran, ?_⟩
  refine (parity_sound_iff _ _ _ _ _ _ _ _ _ _ _ _ _ _ _ _ (by decide +kernel) taken ran).2 (.inr fun _ p mem => ?_)
  rw [List.mem_singleton.1 mem]
  rfl

/-- The handoff of a file that the parity snapshot does not have passes. -/
theorem not_parity_sound_missing : ¬ ∀ (parse : PyStr → Bytes → Except DeltaRaised (List JsonObject)) (symbols : Delta → ℕ)
    (createdAt : PyStr) (tree : Worktree) (files files' : DeltaFiles) (base : HandoffBase) (baseGeneration worktreeId : PyStr)
    (changedPaths s : Option (List PyStr)) (deltaGeneration config : Option PyStr) (snapshot : ParitySnapshot) (d : Delta)
    (h : Handoff), scope changedPaths = .ok s →
    takeDelta tree files base.toBase baseGeneration worktreeId config parse createdAt s deltaGeneration = .ok (d, files') →
    handoff parse symbols createdAt tree files base baseGeneration worktreeId changedPaths deltaGeneration config
      (some snapshot) = .ok (h, files') → h.status = "pass" → ∀ p, InScope s p →
        (composedSourceHashes base.toBase d.changed).get? p = (snapshot.hashes none).get? p := by
  intro all
  have plain (n : Fin 2048) : ¬ (hashesJson (noFiles.hashes (some ["a.py"]))).HasSurrogate n := by
    show ¬ Json.HasSurrogate n (.obj [])
    simp only [Json.HasSurrogate, Json.FieldsHaveSurrogate, not_false_eq_true]
  obtain ⟨text, canonical⟩ := encode_isSome_of_plain plain
  obtain ⟨d, files', h, taken, ran, empty, pass⟩ := exists_handoff noFiles ⟨_, digest_eq_ok_iff.2 ⟨text, canonical, rfl⟩⟩
  have same := all _ _ _ _ _ _ _ _ _ _ _ _ _ _ d h (by decide +kernel) taken ran pass "a.py" (List.mem_singleton_self _)
  rw [empty] at same
  cases (Dict.get?_set_self _ _ _).symm.trans same

end Deltas

end SimplicioFast
