import SimplicioFast.Streaming.Build

/-!
# A build is read back

Whatever the chunks, a build that returns leaves a generation behind whose segment is their concatenation, and a build
for which nothing is in the way returns (`build_readAll`).
-/

namespace SimplicioFast

namespace Streaming

open Crash FileSystem

variable {intText : PyStr → Option ℤ} {store : StreamingBlockStore} {fs fs' : FileSystem} {root work p q : List PyStr}
  {generation name : PyStr} {blockBytes : ℤ} {bs : List Bytes} {chunks : List Bytes} {failAfterBlocks : Option ℤ} {r : Json}
  {C : FileSystem → Prop} {j i : ℕ} {c : Checkpoint} {payload : Bytes}

/-! ## The directory of a generation -/

/-- The directory that `makeWork` makes. -/
def workTarget (root : List PyStr) (name : PyStr) : List PyStr := if name = ("..") then root else child root name

theorem root_prefix_workTarget (root : List PyStr) (name : PyStr) : root <+: workTarget root name := by
  unfold workTarget child
  split
  · exact List.prefix_refl root
  · split
    · exact List.prefix_refl root
    · exact List.prefix_append root [name]

theorem work_prefix_workTarget (root : List PyStr) (name : PyStr) : child root name <+: workTarget root name := by
  unfold workTarget
  split
  · rename_i up
    rw [child, if_neg (by rw [up]; decide), if_pos up]
    exact List.dropLast_prefix root
  · exact List.prefix_refl _

/-- The directories are there behind `makeWork`. -/
theorem triple_makeWork (made : ∀ fs q, C fs → q <+: workTarget root name → fs.get? q = none → fs.IsDir q.dropLast →
    C (fs.set q .dir)) :
    Triple C Closed (makeWork root name) fun _ fs => fs.Closed ∧ Dirs root (child root name) fs := by
  refine (triple_makedirs (I := Closed) fun fs q safe closed above absent parent => ?_).weaken (fun _ _ h => h)
    fun _ fs _ h => ⟨h.1, h.1.isDir_of_above h.2 (root_prefix_workTarget root name),
      h.1.isDir_of_above h.2 (work_prefix_workTarget root name)⟩
  exact ⟨made fs q safe above absent parent, closed.set_dir parent⟩

/-! ## What a build that returns leaves behind -/

theorem triple_build_start (tolerant : ∀ name, Named generation name →
      Tolerant C store.root (child store.root name) generation blockBytes (Blocks.chop blockBytes.toNat chunks.flatten))
    (made : ∀ name, Named generation name → ∀ fs q, C fs → q <+: workTarget store.root name → fs.get? q = none →
      fs.IsDir q.dropLast → C (fs.set q .dir)) :
    Triple C Closed (store.build intText (chunks.map .bytes) generation blockBytes false failAfterBlocks)
      fun r fs => ∃ name, Named generation name ∧ 1 ≤ blockBytes ∧
        r = published (manifestOf generation blockBytes (Blocks.chop blockBytes.toNat chunks.flatten))
          (Blocks.chop blockBytes.toNat chunks.flatten).length ∧
        Finished store.root (child store.root name) generation blockBytes
          (Blocks.chop blockBytes.toNat chunks.flatten) fs := by
  unfold StreamingBlockStore.build
  refine Triple.bind (Q := fun name fs => (Named generation name ∧ 1 ≤ blockBytes) ∧ fs.Closed)
    (Triple.read fun fs name _ closed accepted => ?_) fun name => ?_
  · obtain ⟨named, one, -⟩ := checkArguments_eq_ok_iff.1 accepted
    exact ⟨⟨named, one⟩, closed⟩
  refine Triple.weaken (Triple.of_forall (P := fun _ : Named generation name ∧ 1 ≤ blockBytes => Closed) fun accepted => ?_)
    (fun fs _ start => ⟨start.1, start.2⟩) fun _ _ _ h => h
  obtain ⟨named, one⟩ := accepted
  have given : blocks blockBytes.toNat [] (chunks.map .bytes) = (Blocks.chop blockBytes.toNat chunks.flatten, none) :=
    blocks_bytes (by omega) (by rw [List.length_nil]; omega) chunks
  refine Triple.bind (triple_makeWork (made name named)) fun _ => ?_
  refine Triple.bind ((triple_startCheckpoint (tolerant name named)).weaken (fun _ _ h => h.2) fun _ _ _ h => h) fun c => ?_
  refine Triple.weaken (Triple.of_forall (P := fun _ : c = newCheckpoint generation blockBytes =>
    Holds store.root (child store.root name) generation blockBytes []) fun new => ?_)
    (fun fs _ start => ⟨start.1, start.2⟩) fun _ _ _ h => h
  have tracks : Tracks generation blockBytes ((Blocks.chop blockBytes.toNat chunks.flatten).take 0) c := by
    rw [List.take_zero, new]
    exact tracks_newCheckpoint
  have run := @triple_buildFrom intText _ _ _ _ _ _ failAfterBlocks _ (tolerant name named) _ _ given tracks
  rw [List.take_zero] at run
  exact run.weaken (fun _ _ h => h) fun r fs _ h => ⟨name, named, one, h.1, h.2⟩

theorem Finished.published (finished : Finished root work generation blockBytes bs fs) (unpaired : generation.Unpaired)
    (some : ∀ b ∈ bs, b ≠ []) : Published intText root work bs.flatten fs where
  top := finished.top
  dir := finished.dir
  segment := finished.segment
  manifest := ⟨_, finished.manifest, ⟨generation, blockBytes, ⟨⟨[], entries bs⟩, 0, bs.flatten, bs.flatten.length, 0⟩, rfl,
    unpaired, writable_entries bs, rfl, rfl, fits_entriesFrom some⟩⟩

/-- The published bytes are read, and every range of them; other ranges are refused. -/
def ReadsBack (intText : PyStr → Option ℤ) (store : StreamingBlockStore) (generation : PyStr) (data : Bytes)
    (fs : FileSystem) : Prop :=
  store.readAll generation fs = .ok data ∧
    (∀ start length : ℕ, length ≤ MAX_RANGE_BYTES → start + length ≤ data.length →
      store.readRange intText generation start length fs = .ok (Bytes.slice data start (start + length))) ∧
    ∀ start length : ℤ, ¬ (0 ≤ start ∧ 0 ≤ length ∧ length ≤ MAX_RANGE_BYTES ∧ start + length ≤ data.length) →
      ∃ message, store.readRange intText generation start length fs =
        .error (.streamingStoreError "invalid_range" message)

theorem Published.readsBack {data : Bytes} (published : Published intText store.root (child store.root name) data fs)
    (named : Named generation name) : ReadsBack intText store generation data fs :=
  ⟨readAll_of_published published named, fun _ _ => readRange_of_published published named,
    fun _ _ => readRange_refused published named⟩

/-! ## A build for which nothing is in the way -/

def storeFiles (root work : List PyStr) : List (List PyStr) :=
  [checkpointPath work, temporaryOf (checkpointPath work), segmentPath work, manifestPath work,
    temporaryOf (manifestPath work), currentPath root, temporaryOf (currentPath root)]

/-- No directory stands where a build writes a file, and no file where it makes a directory. -/
structure Ready (root : List PyStr) (name : PyStr) (fs : FileSystem) : Prop where
  closed : fs.Closed
  top : fs.IsDir []
  free : ∀ q, q <+: workTarget root name → fs.Free q
  files : ∀ p ∈ storeFiles root (child root name), ¬ fs.IsDir p ∧ ¬ p <+: workTarget root name

theorem parent_of_mem_storeFiles (mem : p ∈ storeFiles root work) : p.dropLast = root ∨ p.dropLast = work := by
  have files : ∀ q ∈ storeFiles root work, q.dropLast = root ∨ q.dropLast = work := by
    simp [storeFiles, checkpointPath, segmentPath, manifestPath, currentPath]
  exact files p mem

theorem mem_storeFiles (mem : p ∈ [checkpointPath work, manifestPath work, currentPath root]) : p ∈ storeFiles root work := by
  simp only [List.mem_cons, List.not_mem_nil, or_false] at mem
  rcases mem with rfl | rfl | rfl <;> simp [storeFiles]

theorem temporaryOf_mem_storeFiles (mem : p ∈ [checkpointPath work, manifestPath work, currentPath root]) :
    temporaryOf p ∈ storeFiles root work := by
  simp only [List.mem_cons, List.not_mem_nil, or_false] at mem
  rcases mem with rfl | rfl | rfl <;> simp [storeFiles]

namespace Ready

theorem edits {l : List (List PyStr)} (ready : Ready root name fs) (dirs : Dirs root (child root name) fs)
    (edits : Edits l fs fs') (inside : ∀ p ∈ l, p ∈ storeFiles root (child root name)) : Ready root name fs' where
  closed := edits.closed ready.closed fun p mem => by
    rcases parent_of_mem_storeFiles (inside p mem) with same | same
    · exact same ▸ dirs.top
    · exact same ▸ dirs.dir
  top := (edits.isDir_iff []).2 ready.top
  free q above := by
    have other : q ∉ l := fun mem => (ready.files q (inside q mem)).2 above
    rw [Free, edits.same q other, edits.isDir_iff]
    exact ready.free q above
  files p mem := ⟨mt (edits.isDir_iff p).1 (ready.files p mem).1, (ready.files p mem).2⟩

theorem set_dir (ready : Ready root name fs) (above : q <+: workTarget root name) (parent : fs.IsDir q.dropLast) :
    Ready root name (fs.set q .dir) where
  closed := ready.closed.set_dir parent
  top := by
    rw [IsDir, Dict.get?_set]
    split
    · rfl
    · exact ready.top
  free p inside := by
    rw [Free, IsDir, Dict.get?_set]
    split
    · exact .inr rfl
    · exact ready.free p inside
  files p mem := by
    refine ⟨?_, (ready.files p mem).2⟩
    rw [IsDir, Dict.get?_set_of_ne]
    · exact (ready.files p mem).1
    · rintro rfl
      exact (ready.files p mem).2 above

end Ready

theorem tolerant_ready : Tolerant (Ready root name) root (child root name) generation blockBytes bs where
  scratch fs fs' p ready dirs mem edits := ready.edits dirs edits fun q same => by
    rw [List.mem_singleton.1 same]
    exact temporaryOf_mem_storeFiles mem
  segment fs fs' c ready dirs edits _ _ := ready.edits dirs edits (by simp [storeFiles])
  checkpoint fs fs' k ready dirs _ edits _ := ready.edits dirs edits (by simp [storeFiles])
  manifest fs fs' ready dirs edits := ready.edits dirs edits (by simp [storeFiles])
  current fs fs' ready dirs edits := ready.edits dirs edits (by simp [storeFiles])
  removed fs fs' ready dirs edits _ := ready.edits dirs edits (by simp [storeFiles])

theorem returns_atomicJson_of_free (dirs : Dirs root work fs) (mem : p ∈ [checkpointPath work, manifestPath work, currentPath root])
    (free : ¬ fs.IsDir (temporaryOf p)) (free' : ¬ fs.IsDir p) (v : Json) :
    ∃ fs', Returns (atomicJson p v) fs ⟨⟩ fs' ∧ Edits [temporaryOf p, p] fs fs' ∧ fs'.content p = some (jsonBytes v) := by
  have parent {q : List PyStr} (mem : q ∈ storeFiles root work) : fs.IsDir q.dropLast := by
    rcases parent_of_mem_storeFiles mem with same | same
    · exact same ▸ dirs.top
    · exact same ▸ dirs.dir
  exact returns_replace free free' (parent (temporaryOf_mem_storeFiles mem)) (parent (mem_storeFiles mem)) (jsonBytes v)

theorem returns_atomicJson (ready : Ready root name fs) (dirs : Dirs root (child root name) fs)
    (mem : p ∈ [checkpointPath (child root name), manifestPath (child root name), currentPath root]) (v : Json) :
    ∃ fs', Returns (atomicJson p v) fs ⟨⟩ fs' ∧ Edits [temporaryOf p, p] fs fs' ∧ Ready root name fs' ∧
      Dirs root (child root name) fs' := by
  have file := mem_storeFiles mem
  have file' := temporaryOf_mem_storeFiles mem
  obtain ⟨fs', returns, edits, -⟩ := returns_atomicJson_of_free dirs mem (ready.files _ file').1 (ready.files p file).1 v
  refine ⟨fs', returns, edits, ready.edits dirs edits fun q mem => ?_, dirs.edits edits⟩
  rcases List.mem_pair.1 mem with rfl | rfl
  · exact file'
  · exact file

theorem succeeds_buildBlock (ready : Ready root name fs) (here : bs[i]? = some payload) {p : Progress}
    (passed : Passed generation blockBytes bs j i p)
    (holds : Holds root (child root name) generation blockBytes (bs.take (max i j)) fs) :
    ∃ p', (buildBlock (child root name) none p payload fs).result = .ok p' := by
  have listed : p.checkpoint.blocks[p.index]? = ((bs.take (max i j))[i]?).map (entry i) := by
    rw [passed.tracks.blocks, passed.index, entries, getElem?_entriesFrom, Nat.zero_add]
  unfold buildBlock
  cases old : (bs.take (max i j))[i]? with
  | some b =>
    have same : b = payload := by
      rw [List.getElem?_take] at old
      split at old
      · exact Option.some.inj (old.symm.trans here)
      · cases old
    rw [listed, old, same]
    dsimp only [Option.map_some]
    rw [compareBlock_entry]
    exact ⟨_, rfl⟩
  | none =>
    rw [listed, old]
    dsimp only [Option.map_none]
    obtain ⟨fs', ⟨appended, rfl⟩, edits, -⟩ := returns_append (ε := Raised) holds.segment payload
    have ready' := ready.edits holds.toDirs edits (by simp [storeFiles])
    obtain ⟨-, ⟨replaced, -⟩, -⟩ := returns_atomicJson ready' (holds.toDirs.edits edits) List.mem_cons_self
      (p.checkpoint.add p.index payload (p.inputBytes + payload.length)).toJson
    exact exists_result_bind appended (exists_result_bind replaced ⟨_, rfl⟩)

theorem succeeds_blocks {rest : List Bytes} (left : rest = bs.drop i) (ready : Ready root name fs) {p : Progress}
    (passed : Passed generation blockBytes bs j i p)
    (holds : Holds root (child root name) generation blockBytes (bs.take (max i j)) fs) :
    ∃ p', (rest.foldlM (buildBlock (child root name) none) p fs).result = .ok p' := by
  induction rest generalizing i p fs with
  | nil => exact ⟨p, rfl⟩
  | cons payload rest ih =>
    have here : bs[i]? = some payload := by
      rw [← List.head?_drop, ← left]
      rfl
    have next : rest = bs.drop (i + 1) := by
      rw [← List.tail_drop, ← left]
      rfl
    obtain ⟨p', turn⟩ := succeeds_buildBlock ready here passed holds
    obtain ⟨-, ready', behind⟩ := triple_buildBlock tolerant_ready here passed fs ready holds
    obtain ⟨passed', holds'⟩ := behind p' turn
    obtain ⟨p'', more⟩ := ih next ready' passed' holds'
    rw [List.foldlM_cons]
    exact exists_result_bind turn ⟨p'', more⟩

theorem sumLengths_entriesFrom (i : ℕ) (bs : List Bytes) :
    sumLengths intText (entriesFrom i bs) = .ok (bs.flatten.length : ℤ) := by
  induction bs generalizing i with
  | nil => rfl
  | cons b bs ih =>
    refine bind_ok.2 ⟨(b.length : ℤ), rfl, ?_⟩
    refine bind_ok.2 ⟨_, ih (i + 1), ?_⟩
    rw [List.flatten_cons, List.length_append, Nat.cast_add]
    rfl

theorem checkEnd_eq {p : Progress} {n : ℕ} {data : Bytes} (pos : 0 < n)
    (passed : Passed generation blockBytes (Blocks.chop n data) j (Blocks.chop n data).length p) :
    checkEnd intText n p = .ok () := by
  have all : (Blocks.chop n data).take (max (Blocks.chop n data).length j) = Blocks.chop n data :=
    List.take_of_length_le (Nat.le_max_left _ _)
  have listed : p.checkpoint.blocks = entries (Blocks.chop n data) := by rw [passed.tracks.blocks, all]
  have size : p.inputBytes = data.length := by rw [passed.inputBytes, List.take_length, Blocks.flatten_chop pos]
  have count : p.checkpoint.blocks.length = data.length / n + if data.length % n = 0 then 0 else 1 := by
    rw [listed, entries, length_entriesFrom, Blocks.length_chop pos]
  refine bind_ok.2 ⟨(), check_eq_ok_iff.2 (decide_eq_true ?_), ?_⟩
  · rw [count, size]
  refine bind_ok.2 ⟨(data.length : ℤ), ?_, check_eq_ok_iff.2 (decide_eq_true ?_)⟩
  · rw [listed, entries, sumLengths_entriesFrom, Blocks.flatten_chop pos]
  · rw [size]

theorem succeeds_publish (ready : Ready root name fs)
    (holds : Holds root (child root name) generation blockBytes bs fs) (v : Json) :
    ∃ u, (publish root (child root name) v fs).result = .ok u := by
  obtain ⟨fs₁, ⟨first, rfl⟩, edits₁, ready₁, dirs₁⟩ := returns_atomicJson ready holds.toDirs
    (p := manifestPath (child root name)) (by simp) v
  obtain ⟨fs₂, ⟨second, rfl⟩, edits₂, -⟩ := returns_atomicJson ready₁ dirs₁ (p := currentPath root) (by simp) v
  have other : checkpointPath (child root name) ∉
      [temporaryOf (manifestPath (child root name)), manifestPath (child root name)] := notMem_pair (by decide) (by decide)
  have other' : checkpointPath (child root name) ∉ [temporaryOf (currentPath root), currentPath root] :=
    notMem_pair (by decide) (by decide)
  have there := (edits₂.content_eq other').trans ((edits₁.content_eq other).trans holds.checkpoint)
  obtain ⟨-, ⟨third, -⟩, -⟩ := returns_unlink there
  exact exists_result_bind first (exists_result_bind second ⟨_, third⟩)

theorem succeeds_buildFrom {data : Bytes} {chunks : List Chunk} (pos : 0 < blockBytes.toNat)
    (given : blocks blockBytes.toNat [] chunks = (Blocks.chop blockBytes.toNat data, none)) (ready : Ready root name fs)
    (tracks : Tracks generation blockBytes ((Blocks.chop blockBytes.toNat data).take j) c)
    (holds : Holds root (child root name) generation blockBytes ((Blocks.chop blockBytes.toNat data).take j) fs) :
    ∃ r, (buildFrom intText root (child root name) chunks generation blockBytes none c fs).result = .ok r := by
  obtain ⟨opened, same⟩ := returns_openAppend holds.segment
  have passed : Passed generation blockBytes (Blocks.chop blockBytes.toNat data) j 0 ⟨c, 0, [], 0, 0⟩ := by
    refine ⟨?_, rfl, rfl, rfl, (Nat.zero_sub j).symm⟩
    rwa [Nat.zero_max]
  have holds' : Holds root (child root name) generation blockBytes
      ((Blocks.chop blockBytes.toNat data).take (max 0 j)) fs := by rwa [Nat.zero_max]
  obtain ⟨p, ran⟩ := succeeds_blocks rfl ready passed holds'
  obtain ⟨-, ready', behind⟩ := triple_blocks tolerant_ready rfl (Nat.zero_le _) passed fs ready
    holds'
  obtain ⟨passed', holds'⟩ := behind p ran
  have checked := @checkEnd_eq intText _ _ _ _ _ _ pos passed'
  obtain ⟨u, published⟩ := succeeds_publish ready' holds' (.obj (manifest generation blockBytes p))
  unfold buildFrom
  rw [given]
  refine exists_result_bind opened ?_
  rw [same]
  refine exists_result_bind ran ?_
  refine exists_result_bind (a := ⟨⟩) rfl ?_
  refine exists_result_bind (a := ⟨⟩) ?_ ?_
  · show (checkEnd _ _ _).map _ = _
    rw [checked]
    rfl
  · exact exists_result_bind published ⟨_, rfl⟩

theorem returns_makeWork (ready : Ready root name fs) : ∃ fs', Returns (makeWork root name) fs ⟨⟩ fs' ∧
    Ready root name fs' ∧ Dirs root (child root name) fs' ∧ ∀ p ∈ storeFiles root (child root name),
      fs'.get? p = fs.get? p := by
  obtain ⟨fs', returns, closed, found⟩ := returns_makedirs Raised.os (p := workTarget root name) ready.closed ready.top
    ready.free
  have dir {q : List PyStr} (above : q <+: workTarget root name) : fs'.IsDir q := by
    rw [IsDir, found, if_pos above]
  have same (p) (mem : p ∈ storeFiles root (child root name)) : fs'.get? p = fs.get? p := by
    rw [found, if_neg (ready.files p mem).2]
  refine ⟨fs', returns, ⟨closed, ?_, fun q above => .inr (dir above), fun p mem => ⟨?_, (ready.files p mem).2⟩⟩,
    ⟨dir (root_prefix_workTarget root name), dir (work_prefix_workTarget root name)⟩, same⟩
  · exact dir List.nil_prefix
  · rw [IsDir, same p mem]
    exact (ready.files p mem).1

theorem started_of_ready (ready : Ready root name fs) (dirs : Dirs root (child root name) fs) :
    (startCheckpoint (child root name) generation blockBytes fs).result = .ok (newCheckpoint generation blockBytes) ∧
      Ready root name (startCheckpoint (child root name) generation blockBytes fs).last ∧
      Holds root (child root name) generation blockBytes []
        (startCheckpoint (child root name) generation blockBytes fs).last := by
  obtain ⟨fs₁, ⟨written, rfl⟩, -, ready₁, dirs₁⟩ := returns_atomicJson ready dirs List.mem_cons_self
    (newCheckpoint generation blockBytes).toJson
  obtain ⟨fs₂, ⟨emptied, -⟩, -⟩ := returns_writeFile
    (ready₁.files (segmentPath (child root name)) (by simp [storeFiles])).1
    (by rw [segmentPath, List.dropLast_concat]; exact dirs₁.dir) []
  have started : (startCheckpoint (child root name) generation blockBytes fs).result =
      .ok (newCheckpoint generation blockBytes) :=
    Prog.result_bind_eq_ok_iff.2 ⟨_, written, Prog.result_bind_eq_ok_iff.2 ⟨_, emptied, rfl⟩⟩
  obtain ⟨-, ready₂, behind⟩ := @triple_startCheckpoint _ _ _ _ [] _
    tolerant_ready fs ready dirs
  exact ⟨started, ready₂, (behind _ started).2⟩

theorem succeeds_build (named : Named generation name) (one : 1 ≤ blockBytes) (max : blockBytes ≤ MAX_BLOCK_BYTES)
    (ready : Ready store.root name fs) (chunks : List Bytes) :
    ∃ r, (store.build intText (chunks.map .bytes) generation blockBytes false none fs).result = .ok r := by
  have given : blocks blockBytes.toNat [] (chunks.map .bytes) = (Blocks.chop blockBytes.toNat chunks.flatten, none) :=
    blocks_bytes (by omega) (by rw [List.length_nil]; omega) chunks
  obtain ⟨fs₁, ⟨made, rfl⟩, ready₁, dirs₁, -⟩ := returns_makeWork ready
  obtain ⟨started, ready₃, holds⟩ := started_of_ready ready₁ dirs₁
  have tracks : Tracks generation blockBytes ((Blocks.chop blockBytes.toNat chunks.flatten).take 0)
      (newCheckpoint generation blockBytes) := tracks_newCheckpoint
  refine exists_result_bind (checkArguments_eq_ok_iff.2 ⟨named, one, max⟩) ?_
  refine exists_result_bind made ?_
  refine exists_result_bind started ?_
  exact succeeds_buildFrom (by omega) given ready₃ tracks holds

/-! ## The round trip -/

theorem finished_of_build (closed : fs.Closed)
    (ran : (store.build intText (chunks.map .bytes) generation blockBytes false failAfterBlocks fs).result = .ok r) :
    ∃ name, Named generation name ∧ 1 ≤ blockBytes ∧
      r = published (manifestOf generation blockBytes (Blocks.chop blockBytes.toNat chunks.flatten))
        (Blocks.chop blockBytes.toNat chunks.flatten).length ∧
      Finished store.root (child store.root name) generation blockBytes (Blocks.chop blockBytes.toNat chunks.flatten)
        (store.build intText (chunks.map .bytes) generation blockBytes false failAfterBlocks fs).last :=
  (triple_build_start (C := fun _ => True) (fun _ _ => tolerant_true) (fun _ _ _ _ _ _ _ _ => trivial) fs trivial
    closed).2.2 r ran

end Streaming

end SimplicioFast
