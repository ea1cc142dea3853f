import SimplicioFast.Streaming.RoundTrip

/-!
# Resuming a build

A build can be stopped behind every step, and it can be tried again.  A resumed build accepts what it finds exactly when
the checkpoint is there and the segment holds the blocks that it lists and nothing else (`resume_iff`): the checkpoint is
not there before it is first written and behind the last step of a build that published, and between an append and the
next checkpoint the segment is ahead.
-/

namespace SimplicioFast

namespace Streaming

open Crash FileSystem

variable {intText : PyStr → Option ℤ} {store : StreamingBlockStore} {fs fs' t : FileSystem} {root work p q : List PyStr}
  {generation name : PyStr} {blockBytes : ℤ} {bs : List Bytes} {chunks : List Bytes} {failAfterBlocks : Option ℤ}
  {C : FileSystem → Prop} {c : Checkpoint} {data rest : Bytes} {i k n cursor : ℕ}

/-! ## What a resumed build accepts -/

theorem cursor_of_validateBlocks {e : ℕ} (valid : validateBlocks intText data i cursor (entriesFrom i bs) = .ok e) :
    e = cursor + bs.flatten.length := by
  induction bs generalizing i cursor with
  | nil =>
    cases valid
    rfl
  | cons b bs ih =>
    obtain ⟨stored, -, valid⟩ := bind_ok.1 valid
    obtain ⟨⟨⟩, -, valid⟩ := bind_ok.1 valid
    obtain ⟨length, read, valid⟩ := bind_ok.1 valid
    cases read
    obtain ⟨⟨⟩, -, valid⟩ := bind_ok.1 valid
    obtain ⟨digest, -, valid⟩ := bind_ok.1 valid
    obtain ⟨⟨⟩, -, valid⟩ := bind_ok.1 valid
    rw [ih valid, List.flatten_cons, List.length_append, Int.toNat_natCast, Nat.add_assoc]

theorem validateBlocks_eq (nonempty : ∀ b ∈ bs, b ≠ []) (starts : data.drop cursor = bs.flatten ++ rest) :
    validateBlocks intText data i cursor (entriesFrom i bs) = .ok (cursor + bs.flatten.length) := by
  induction bs generalizing i cursor with
  | nil => rfl
  | cons b bs ih =>
    obtain ⟨first, others⟩ := List.forall_mem_cons.1 nonempty
    have pos := List.length_pos_iff.2 first
    rw [List.flatten_cons, List.append_assoc] at starts
    have size : b.length ≤ data.length - cursor := by
      have lengths := congrArg List.length starts
      rw [List.length_drop, List.length_append] at lengths
      omega
    have slice : Bytes.slice data cursor (cursor + b.length) = b := by
      have width : cursor + b.length - cursor = b.length := by omega
      rw [Bytes.slice, width, starts, List.take_left]
    have next : data.drop (cursor + b.length) = bs.flatten ++ rest := by
      rw [← List.drop_drop, starts, List.drop_left]
    have index : isEqual (some (.int i)) (.int i) = true := by
      show decide _ = true
      simp
    have bounds : (decide ((1 : ℤ) ≤ b.length) && decide ((cursor : ℤ) + b.length ≤ data.length)) = true := by
      rw [Bool.and_eq_true_iff, decide_eq_true_iff, decide_eq_true_iff]
      omega
    refine bind_ok.2 ⟨_, rfl, ?_⟩
    refine bind_ok.2 ⟨(), check_eq_ok_iff.2 index, ?_⟩
    refine bind_ok.2 ⟨(b.length : ℤ), rfl, ?_⟩
    refine bind_ok.2 ⟨(), check_eq_ok_iff.2 bounds, ?_⟩
    refine bind_ok.2 ⟨some (.str (hexdigest b)), rfl, ?_⟩
    refine bind_ok.2 ⟨(), check_eq_ok_iff.2 (isEqual_str_iff.2 ?_), ?_⟩
    · rw [Int.toNat_natCast, slice]
    · rw [Int.toNat_natCast, ih others next, List.flatten_cons, List.length_append, Nat.add_assoc]

theorem flatten_take_prefix (k : ℕ) (bs : List Bytes) : (bs.take k).flatten <+: bs.flatten := by
  conv_rhs => rw [← List.take_append_drop k bs, List.flatten_append]
  exact List.prefix_append _ _

/-- What an attempt to build over these blocks finds and leaves: no checkpoint, or that of the first blocks; a segment with
the front of the data, when the checkpoint lists a block. -/
structure Attempted (root : List PyStr) (name generation : PyStr) (blockBytes : ℤ) (bs : List Bytes) (fs : FileSystem) :
    Prop extends Ready root name fs where
  checkpoint : fs.content (checkpointPath (child root name)) = none ∨
    ∃ k, fs.content (checkpointPath (child root name)) = some (checkpointBytes generation blockBytes (bs.take k)) ∧
      (k = 0 ∨ ∃ c, fs.content (segmentPath (child root name)) = some c ∧ c <+: bs.flatten)

/-- The checkpoint is there, and the segment holds the blocks that it lists and nothing else. -/
def Resumable (work : List PyStr) (generation : PyStr) (blockBytes : ℤ) (bs : List Bytes) (fs : FileSystem) : Prop :=
  ∃ k, fs.content (checkpointPath work) = some (checkpointBytes generation blockBytes (bs.take k)) ∧
    fs.content (segmentPath work) = some (bs.take k).flatten

theorem content_of_readJson {missing : Raised} {v : Json} (read : readJson missing fs p = .ok v) :
    ∃ b, fs.content p = some b := by
  unfold readJson at read
  split at read
  · cases read
  · cases read
  · rename_i b there
    exact ⟨b, content_eq_some_iff.2 there⟩

/-- The checkpoint that a resumed build starts from. -/
def resumed (generation : PyStr) (blockBytes : ℤ) (bs : List Bytes) : Checkpoint :=
  ⟨sortedFields generation blockBytes bs.flatten.length (.arr (entries bs)), entries bs⟩

theorem tracks_resumed : Tracks generation blockBytes bs (resumed generation blockBytes bs) := ⟨rfl, _, .inr rfl⟩

theorem resumeCheckpoint_of_content (unpaired : generation.Unpaired) (nonempty : ∀ b ∈ bs, b ≠ [])
    (written : fs.content (checkpointPath work) = some (checkpointBytes generation blockBytes bs))
    (segment : fs.content (segmentPath work) = some bs.flatten) :
    resumeCheckpoint intText work generation blockBytes fs = .ok (resumed generation blockBytes bs) := by
  have size : isEqual (some (.int blockBytes)) (.int blockBytes) = true := by
    show decide _ = true
    simp
  refine bind_ok.2 ⟨_, loadCheckpoint_eq unpaired written, ?_⟩
  refine bind_ok.2 ⟨(), check_eq_ok_iff.2 (Bool.and_eq_true_iff.2 ⟨isEqual_str_iff.2 rfl, size⟩), ?_⟩
  refine bind_ok.2 ⟨(), ?_, rfl⟩
  rw [validateExisting, content_eq_some_iff.1 segment]
  have valid := @validateBlocks_eq intText _ _ _ 0 _ nonempty
    (by rw [List.drop_zero, List.append_nil])
  refine bind_ok.2 ⟨_, valid, check_eq_ok_iff.2 (decide_eq_true ?_)⟩
  rw [Nat.zero_add]

theorem resumable_of_resumeCheckpoint (attempted : Attempted root name generation blockBytes bs fs)
    (unpaired : generation.Unpaired)
    (accepted : resumeCheckpoint intText (child root name) generation blockBytes fs = .ok c) :
    ∃ k, fs.content (checkpointPath (child root name)) = some (checkpointBytes generation blockBytes (bs.take k)) ∧
      fs.content (segmentPath (child root name)) = some (bs.take k).flatten ∧
      c = resumed generation blockBytes (bs.take k) := by
  obtain ⟨checkpoint, loaded, accepted⟩ := bind_ok.1 accepted
  obtain ⟨⟨⟩, -, accepted⟩ := bind_ok.1 accepted
  obtain ⟨⟨⟩, valid, same⟩ := bind_ok.1 accepted
  obtain rfl : checkpoint = c := Except.ok.inj same
  obtain ⟨v, read, -⟩ := bind_ok.1 loaded
  obtain ⟨b, there⟩ := content_of_readJson read
  rcases attempted.checkpoint with none | ⟨k, written, front⟩
  · rw [none] at there
    cases there
  · have made := (loadCheckpoint_eq unpaired written).symm.trans loaded
    obtain rfl : resumed generation blockBytes (bs.take k) = checkpoint := Except.ok.inj made
    refine ⟨k, written, ?_, rfl⟩
    unfold validateExisting at valid
    split at valid
    · cases valid
    · cases valid
    · rename_i data found
      obtain ⟨cursor, ends, whole⟩ := bind_ok.1 valid
      have length : cursor = data.length := of_decide_eq_true (check_eq_ok_iff.1 whole)
      rw [cursor_of_validateBlocks ends, Nat.zero_add] at length
      have content := content_eq_some_iff.2 found
      rw [content]
      congr 1
      rcases front with rfl | ⟨c, segment, front⟩
      · rw [List.take_zero, List.flatten_nil, List.length_nil] at length
        rw [List.take_zero, List.flatten_nil]
        exact List.eq_nil_of_length_eq_zero length.symm
      · obtain rfl : c = data := Option.some.inj (segment.symm.trans content)
        have first := flatten_take_prefix k bs
        exact (List.prefix_of_prefix_length_le front first length.ge).eq_of_length length.symm

/-! ## What attempts leave behind -/

namespace Attempted

theorem keep (attempted : Attempted root name generation blockBytes bs fs) (ready : Ready root name fs')
    (checkpoint : fs'.content (checkpointPath (child root name)) = fs.content (checkpointPath (child root name)))
    (segment : fs'.content (segmentPath (child root name)) = fs.content (segmentPath (child root name))) :
    Attempted root name generation blockBytes bs fs' := by
  refine ⟨ready, ?_⟩
  rw [checkpoint, segment]
  exact attempted.checkpoint

theorem edits {l : List (List PyStr)} (attempted : Attempted root name generation blockBytes bs fs)
    (dirs : Dirs root (child root name) fs) (edits : Edits l fs fs') (inside : ∀ p ∈ l, p ∈ storeFiles root (child root name))
    (checkpoint : checkpointPath (child root name) ∉ l) (segment : segmentPath (child root name) ∉ l) :
    Attempted root name generation blockBytes bs fs' :=
  attempted.keep (attempted.toReady.edits dirs edits inside) (edits.content_eq checkpoint) (edits.content_eq segment)

theorem set_dir (attempted : Attempted root name generation blockBytes bs fs) (above : q <+: workTarget root name)
    (parent : fs.IsDir q.dropLast) : Attempted root name generation blockBytes bs (fs.set q .dir) := by
  have other {p : List PyStr} (mem : p ∈ storeFiles root (child root name)) : p ≠ q := by
    rintro rfl
    exact (attempted.files p mem).2 above
  refine attempted.keep (attempted.toReady.set_dir above parent) ?_ ?_
  · exact content_congr (Dict.get?_set_of_ne _ _ (other (by simp [storeFiles])))
  · exact content_congr (Dict.get?_set_of_ne _ _ (other (by simp [storeFiles])))

end Attempted

theorem tolerant_attempted : Tolerant (Attempted root name generation blockBytes bs) root (child root name) generation
    blockBytes bs where
  scratch fs fs' p attempted dirs mem edits := by
    refine attempted.edits dirs edits (fun q same => ?_) ?_ ?_
    · rw [List.mem_singleton.1 same]
      exact temporaryOf_mem_storeFiles mem
    all_goals
      simp only [List.mem_cons, List.not_mem_nil, or_false] at mem
      rcases mem with rfl | rfl | rfl <;> exact notMem_temporary (by decide)
  segment fs fs' c attempted dirs edits written front := by
    have other : checkpointPath (child root name) ∉ [segmentPath (child root name)] := notMem_singleton (by decide)
    refine ⟨attempted.toReady.edits dirs edits (by simp [storeFiles]), ?_⟩
    rw [edits.content_eq other]
    exact attempted.checkpoint.imp_right fun ⟨k, listed, _⟩ => ⟨k, listed, .inr ⟨c, written, front⟩⟩
  checkpoint fs fs' k attempted dirs kept edits written := by
    refine ⟨attempted.toReady.edits dirs edits (by simp [storeFiles]), .inr ⟨k, written, kept.imp_right fun whole => ?_⟩⟩
    exact ⟨_, (edits.content_eq (notMem_pair (by decide) (by decide))).trans whole, flatten_take_prefix k bs⟩
  manifest fs fs' attempted dirs edits := attempted.edits dirs edits (by simp [storeFiles])
    (notMem_pair (by decide) (by decide)) (notMem_pair (by decide) (by decide))
  current fs fs' attempted dirs edits := attempted.edits dirs edits (by simp [storeFiles])
    (notMem_pair (by decide) (by decide)) (notMem_pair (by decide) (by decide))
  removed fs fs' attempted dirs edits removed :=
    ⟨attempted.toReady.edits dirs edits (by simp [storeFiles]), .inl removed⟩

theorem triple_build_attempt (named : Named generation name) (one : 1 ≤ blockBytes) (resume : Bool) :
    Triple (Attempted store.root name generation blockBytes (Blocks.chop blockBytes.toNat chunks.flatten)) (fun _ => True)
      (store.build intText (chunks.map .bytes) generation blockBytes resume failAfterBlocks)
      fun _ => Finished store.root (child store.root name) generation blockBytes
        (Blocks.chop blockBytes.toNat chunks.flatten) := by
  unfold StreamingBlockStore.build
  refine Triple.bind (Q := fun name' fs => name' = name ∧ True) (Triple.read fun fs name' _ _ accepted => ?_) fun name' => ?_
  · obtain ⟨named', -, -⟩ := checkArguments_eq_ok_iff.1 accepted
    exact ⟨Except.ok.inj (named'.os.symm.trans named.os), trivial⟩
  refine Triple.weaken (Triple.of_forall (P := fun (_ : name' = name) _ => True) fun same => ?_)
    (fun fs _ start => ⟨start.1, start.2⟩) fun _ _ _ h => h
  subst same
  have given : blocks blockBytes.toNat [] (chunks.map .bytes) = (Blocks.chop blockBytes.toNat chunks.flatten, none) :=
    blocks_bytes (by omega) (by rw [List.length_nil]; omega) chunks
  refine Triple.bind ((triple_makeWork fun fs q attempted above _ parent => attempted.set_dir above parent).weaken
    (fun _ attempted _ => attempted.closed) fun _ _ _ h => h.2) fun _ => ?_
  have behind (j : ℕ) {c : Checkpoint}
      (tracks : Tracks generation blockBytes ((Blocks.chop blockBytes.toNat chunks.flatten).take j) c) :=
    (@triple_buildFrom intText _ _ _ _ _ _ failAfterBlocks _ (@tolerant_attempted store.root _ name' _ _) _ _ given
      tracks).weaken (fun _ _ h => h) fun _ _ _ h => h.2
  cases resume with
  | false =>
    refine Triple.bind (triple_startCheckpoint tolerant_attempted) fun c => ?_
    refine Triple.weaken (Triple.of_forall (P := fun _ : c = newCheckpoint generation blockBytes =>
      Holds store.root (child store.root name') generation blockBytes []) fun new => ?_)
      (fun fs _ start => ⟨start.1, start.2⟩) fun _ _ _ h => h
    subst new
    have run := behind 0 tracks_newCheckpoint
    rwa [List.take_zero] at run
  | true =>
    refine Triple.bind (Q := fun c fs => ∃ j,
      c = resumed generation blockBytes ((Blocks.chop blockBytes.toNat chunks.flatten).take j) ∧ Holds store.root (child store.root name') generation blockBytes
        ((Blocks.chop blockBytes.toNat chunks.flatten).take j) fs) (Triple.read fun fs c attempted dirs accepted => ?_)
      fun c => Triple.of_forall fun j => ?_
    · obtain ⟨j, written, whole, loaded⟩ := resumable_of_resumeCheckpoint attempted named.unpaired accepted
      exact ⟨j, loaded, dirs, whole, written⟩
    refine Triple.weaken (Triple.of_forall (P := fun _ :
      c = resumed generation blockBytes ((Blocks.chop blockBytes.toNat chunks.flatten).take j) => Holds store.root (child store.root name') generation blockBytes
        ((Blocks.chop blockBytes.toNat chunks.flatten).take j)) fun loaded => ?_)
      (fun fs _ start => ⟨start.1, start.2⟩) fun _ _ _ h => h
    subst loaded
    exact behind j tracks_resumed

/-- The states in which builds over a source may be left, one attempt after the other. -/
inductive Attempts (intText : PyStr → Option ℤ) (store : StreamingBlockStore) (generation : PyStr) (blockBytes : ℤ)
    (source : Bytes) (fs : FileSystem) : FileSystem → Prop
  | start : Attempts intText store generation blockBytes source fs fs
  | stopped {t t' : FileSystem} {chunks : List Bytes} {resume : Bool} {failAfterBlocks : Option ℤ}
    (before : Attempts intText store generation blockBytes source fs t) (same : chunks.flatten = source)
    (stop : Stops (store.build intText (chunks.map .bytes) generation blockBytes resume failAfterBlocks) t t') :
    Attempts intText store generation blockBytes source fs t'

theorem Attempts.attempted {source : Bytes} (attempts : Attempts intText store generation blockBytes source fs t)
    (named : Named generation name) (one : 1 ≤ blockBytes) (ready : Ready store.root name fs)
    (fresh : fs.content (checkpointPath (child store.root name)) = none) :
    Attempted store.root name generation blockBytes (Blocks.chop blockBytes.toNat source) t := by
  induction attempts with
  | start => exact ⟨ready, .inl fresh⟩
  | stopped before same stop ih =>
    subst same
    exact (triple_build_attempt named one _).stops ih trivial stop

/-! ## Resuming -/

/-- A resumed build succeeds, and publishes what a build that starts publishes, wherever it starts. -/
def Resumes (intText : PyStr → Option ℤ) (store : StreamingBlockStore) (name generation : PyStr) (blockBytes : ℤ)
    (chunks : List Bytes) (t : FileSystem) : Prop :=
  (∃ r, (store.build intText (chunks.map .bytes) generation blockBytes true none t).result = .ok r) ∧
    ∀ fs, Ready store.root name fs →
      (∃ r, (store.build intText (chunks.map .bytes) generation blockBytes false none fs).result = .ok r) ∧
        ∃ manifest : Bytes, ∀ last ∈ [(store.build intText (chunks.map .bytes) generation blockBytes true none t).last,
            (store.build intText (chunks.map .bytes) generation blockBytes false none fs).last],
          FileSystem.content last (manifestPath (child store.root name)) = some manifest ∧
            FileSystem.content last (currentPath store.root) = some manifest

theorem resumes_of_resumable (named : Named generation name) (one : 1 ≤ blockBytes) (max : blockBytes ≤ MAX_BLOCK_BYTES)
    (ready : Ready store.root name t)
    (resumable : Resumable (child store.root name) generation blockBytes (Blocks.chop blockBytes.toNat chunks.flatten) t) :
    Resumes intText store name generation blockBytes chunks t := by
  obtain ⟨k, written, whole⟩ := resumable
  have pos : 0 < blockBytes.toNat := by omega
  have attempted : Attempted store.root name generation blockBytes (Blocks.chop blockBytes.toNat chunks.flatten) t :=
    ⟨ready, .inr ⟨k, written, .inr ⟨_, whole, flatten_take_prefix k _⟩⟩⟩
  have given : blocks blockBytes.toNat [] (chunks.map .bytes) = (Blocks.chop blockBytes.toNat chunks.flatten, none) :=
    blocks_bytes pos (by rw [List.length_nil]; omega) chunks
  have nonempty (b) (mem : b ∈ (Blocks.chop blockBytes.toNat chunks.flatten).take k) : b ≠ [] :=
    Blocks.ne_nil_of_mem_chop pos (List.mem_of_mem_take mem)
  obtain ⟨fs₁, ⟨made, rfl⟩, ready₁, dirs₁, same⟩ := returns_makeWork ready
  have written₁ := (content_congr (same (checkpointPath (child store.root name)) (by simp [storeFiles]))).trans written
  have whole₁ := (content_congr (same (segmentPath (child store.root name)) (by simp [storeFiles]))).trans whole
  have accepted := @resumeCheckpoint_of_content intText _ _ _ _ _ named.unpaired nonempty written₁ whole₁
  have succeeds := @succeeds_buildFrom intText _ _ _ _ _ _ _ _ _ pos given ready₁ tracks_resumed ⟨dirs₁, whole₁, written₁⟩
  have ran : ∃ r, (store.build intText (chunks.map .bytes) generation blockBytes true none t).result = .ok r :=
    exists_result_bind (checkArguments_eq_ok_iff.2 ⟨named, one, max⟩)
      (exists_result_bind made (exists_result_bind accepted succeeds))
  refine ⟨ran, fun fs start => ?_⟩
  obtain ⟨r, result⟩ := ran
  have finished := (triple_build_attempt named one true t attempted trivial).2.2 r result
  obtain ⟨r', result'⟩ := @succeeds_build intText _ _ _ _ _ named one max start chunks
  obtain ⟨name', named', -, -, finished'⟩ := finished_of_build start.closed result'
  obtain rfl : name' = name := Except.ok.inj (named'.os.symm.trans named.os)
  refine ⟨⟨r', result'⟩, jsonBytes (.obj (manifestOf generation blockBytes
    (Blocks.chop blockBytes.toNat chunks.flatten))), fun last mem => ?_⟩
  rcases List.mem_pair.1 mem with rfl | rfl
  · exact ⟨finished.manifest, finished.current⟩
  · exact ⟨finished'.manifest, finished'.current⟩

theorem resumable_of_resumes {source : Bytes} (named : Named generation name)
    (attempted : Attempted store.root name generation blockBytes (Blocks.chop blockBytes.toNat source) t) {r : Json}
    (ran : (store.build intText (chunks.map .bytes) generation blockBytes true none t).result = .ok r) :
    Resumable (child store.root name) generation blockBytes (Blocks.chop blockBytes.toNat source) t := by
  obtain ⟨fs₁, ⟨made, rfl⟩, -, -, found⟩ := returns_makeWork attempted.toReady
  have attempted₁ : Attempted store.root name generation blockBytes (Blocks.chop blockBytes.toNat source)
      (makeWork store.root name t).last :=
    ((triple_makeWork fun fs q attempted above _ parent => attempted.set_dir above parent) t attempted
      attempted.closed).2.1
  obtain ⟨name', accepted, ran⟩ := Prog.result_bind_eq_ok_iff.1 ran
  obtain ⟨named', -, -⟩ := checkArguments_eq_ok_iff.1 accepted
  obtain rfl : name' = name := Except.ok.inj (named'.os.symm.trans named.os)
  obtain ⟨⟨⟩, -, ran⟩ := Prog.result_bind_eq_ok_iff.1 ran
  obtain ⟨c, loaded, -⟩ := Prog.result_bind_eq_ok_iff.1 ran
  obtain ⟨k, written, whole, -⟩ := resumable_of_resumeCheckpoint attempted₁ named.unpaired loaded
  refine ⟨k, ?_, ?_⟩
  · exact (content_congr (found (checkpointPath (child store.root name')) (by simp [storeFiles]))).symm.trans written
  · exact (content_congr (found (segmentPath (child store.root name')) (by simp [storeFiles]))).symm.trans whole

theorem segmentTail_of_ahead (named : Named generation name) (one : 1 ≤ blockBytes) (max : blockBytes ≤ MAX_BLOCK_BYTES)
    (ready : Ready store.root name t)
    (written : t.content (checkpointPath (child store.root name)) = some (checkpointBytes generation blockBytes []))
    (ahead : t.content (segmentPath (child store.root name)) = some data) (nonempty : data ≠ []) (chunks : List Chunk) :
    (store.build intText chunks generation blockBytes true failAfterBlocks t).result =
      .error (.streamingStoreError "segment_tail" "segment has bytes outside checkpoint") := by
  have accepted := checkArguments_eq_ok_iff.2 ⟨named, one, max⟩
  obtain ⟨fs₁, ⟨made, rfl⟩, -, -, same⟩ := returns_makeWork ready
  have written₁ := (content_congr (same (checkpointPath (child store.root name)) (by simp [storeFiles]))).trans written
  have ahead₁ := (content_congr (same (segmentPath (child store.root name)) (by simp [storeFiles]))).trans ahead
  have size : isEqual (some (.int blockBytes)) (.int blockBytes) = true := by
    show decide _ = true
    simp
  have fits : check (isEqual (some (.str generation)) (.str generation) && isEqual (some (.int blockBytes)) (.int blockBytes))
      "checkpoint_mismatch" "checkpoint generation or block size differs" = .ok () :=
    check_eq_ok_iff.2 (Bool.and_eq_true_iff.2 ⟨isEqual_str_iff.2 rfl, size⟩)
  have tail : validateExisting intText (makeWork store.root name t).last (child store.root name)
      ⟨sortedFields generation blockBytes 0 (.arr []), []⟩ =
        .error (.streamingStoreError "segment_tail" "segment has bytes outside checkpoint") := by
    rw [validateExisting, content_eq_some_iff.1 ahead₁]
    show check (decide (0 = data.length)) _ _ = _
    rw [check, decide_eq_false fun none => nonempty (List.eq_nil_of_length_eq_zero none.symm)]
    rfl
  have refused : resumeCheckpoint intText (child store.root name) generation blockBytes (makeWork store.root name t).last =
      .error (.streamingStoreError "segment_tail" "segment has bytes outside checkpoint") := by
    rw [resumeCheckpoint, loadCheckpoint_eq named.unpaired written₁]
    show (check (isEqual (some (.str generation)) (.str generation) && isEqual (some (.int blockBytes)) (.int blockBytes))
      _ _ >>= fun _ => validateExisting intText _ _ ⟨sortedFields generation blockBytes 0 (.arr []), []⟩ >>= fun _ => _) = _
    rw [fits, tail]
    rfl
  unfold StreamingBlockStore.build
  rw [Prog.bind_of_ok (m := Prog.read fun _ => checkArguments generation blockBytes) (s := t) accepted]
  show ((makeWork store.root name >>= fun _ => _) t).result = _
  rw [Prog.bind_of_ok made]
  exact congrArg Run.result (Prog.bind_of_error
    (m := Prog.read (resumeCheckpoint intText (child store.root name) generation blockBytes)) refused)

theorem exists_stop_ahead (named : Named generation name) (one : 1 ≤ blockBytes) (max : blockBytes ≤ MAX_BLOCK_BYTES)
    (ready : Ready store.root name fs) (data : chunks.flatten ≠ []) :
    ∃ t, Stops (store.build intText (chunks.map .bytes) generation blockBytes false none) fs t ∧
      (store.build intText (chunks.map .bytes) generation blockBytes true none t).result =
        .error (.streamingStoreError "segment_tail" "segment has bytes outside checkpoint") := by
  have pos : 0 < blockBytes.toNat := by omega
  have given : blocks blockBytes.toNat [] (chunks.map .bytes) = (Blocks.chop blockBytes.toNat chunks.flatten, none) :=
    blocks_bytes pos (by rw [List.length_nil]; omega) chunks
  have accepted := checkArguments_eq_ok_iff.2 ⟨named, one, max⟩
  obtain ⟨b, rest, first⟩ : ∃ b rest, Blocks.chop blockBytes.toNat chunks.flatten = b :: rest := by
    refine List.exists_cons_of_ne_nil fun none => data ?_
    rw [← Blocks.flatten_chop pos chunks.flatten, none, List.flatten_nil]
  have nonempty : b ≠ [] := Blocks.ne_nil_of_mem_chop pos (by rw [first]; exact List.mem_cons_self)
  obtain ⟨fs₁, ⟨made, rfl⟩, ready₁, dirs₁, -⟩ := returns_makeWork ready
  obtain ⟨started, ready₃, holds⟩ := started_of_ready ready₁ dirs₁
  obtain ⟨opened, same⟩ := returns_openAppend holds.segment
  obtain ⟨t, ⟨appended, rfl⟩, edits, written⟩ := returns_append (ε := Raised) holds.segment b
  refine ⟨(append (ε := Raised) (segmentPath (child store.root name)) b
    (startCheckpoint (child store.root name) generation blockBytes (makeWork store.root name fs).last).last).last,
    .inr (.inl ?_), ?_⟩
  · refine Prog.passed_of_bind_right accepted (Prog.passed_of_bind_right made (Prog.passed_of_bind_right started ?_))
    unfold buildFrom
    refine Prog.passed_of_bind_right opened ?_
    have here : (openAppend Raised.os (segmentPath (child store.root name))
        (startCheckpoint (child store.root name) generation blockBytes
          (makeWork store.root name (Prog.read (fun _ => checkArguments generation blockBytes) fs).last).last).last).last =
        (startCheckpoint (child store.root name) generation blockBytes (makeWork store.root name fs).last).last := same
    rw [given, first, List.foldlM_cons, here]
    refine Prog.passed_of_bind_left (Prog.passed_of_bind_left (Prog.passed_of_bind_left ?_))
    exact last_mem_passed_append
  · have other : checkpointPath (child store.root name) ∉ [segmentPath (child store.root name)] :=
      notMem_singleton (by decide)
    exact segmentTail_of_ahead named one max (ready₃.edits holds.toDirs edits (by simp [storeFiles]))
      ((edits.content_eq other).trans holds.checkpoint) written nonempty _

/-- A resumed build succeeds and publishes what an uninterrupted build publishes from every state that is resumable; and
of the states in which attempts over the source are left, from no other. -/
theorem resume_iff (intText : PyStr → Option ℤ) (store : StreamingBlockStore) (generation name : PyStr) (blockBytes : ℤ)
    (accepted : checkArguments generation blockBytes = .ok name) (source : Bytes) (chunks : List Bytes)
    (same : chunks.flatten = source) :
    (∀ t, Ready store.root name t →
      Resumable (child store.root name) generation blockBytes (Blocks.chop blockBytes.toNat source) t →
        Resumes intText store name generation blockBytes chunks t) ∧
      ∀ fs t, Ready store.root name fs → fs.content (checkpointPath (child store.root name)) = none →
        Attempts intText store generation blockBytes source fs t →
          (Resumes intText store name generation blockBytes chunks t ↔
            Resumable (child store.root name) generation blockBytes (Blocks.chop blockBytes.toNat source) t) := by
  obtain ⟨named, one, max⟩ := checkArguments_eq_ok_iff.1 accepted
  have enough (t) (ready : Ready store.root name t)
      (resumable : Resumable (child store.root name) generation blockBytes (Blocks.chop blockBytes.toNat source) t) :=
    @resumes_of_resumable intText _ _ _ _ _ _ named one max ready (same.symm ▸ resumable)
  refine ⟨enough, fun fs t ready fresh attempts => ?_⟩
  have attempted := attempts.attempted named one ready fresh
  constructor
  · rintro ⟨⟨r, ran⟩, -⟩
    exact resumable_of_resumes named attempted ran
  · exact enough t attempted.toReady

/-! ## Samples -/

/-- An empty directory `/s`. -/
def sampleFiles : FileSystem := (Dict.empty.set [] .dir).set [("s" : PyStr)] .dir

/-- A store in `/s`. -/
def sampleStore : StreamingBlockStore := ⟨[("s" : PyStr)]⟩

theorem ready_sample : Ready sampleStore.root "g" sampleFiles := by
  have target : workTarget sampleStore.root "g" = [("s" : PyStr), ("g" : PyStr)] := by decide
  constructor
  · intro p there
    have mem := (Dict.isSome_get?_iff _ _).1 there
    have keys : sampleFiles.keys = [[], [("s" : PyStr)]] := by decide
    rw [keys] at mem
    rcases List.mem_pair.1 mem with rfl | rfl
    · decide
    · decide
  · decide
  · rw [target]
    intro q above
    have free : ∀ q ∈ [("s" : PyStr), ("g" : PyStr)].inits, sampleFiles.get? q = none ∨ sampleFiles.IsDir q := by decide
    exact free q ((List.mem_inits _ _).2 above)
  · decide

def sampleStarted : FileSystem :=
  (startCheckpoint [("s" : PyStr), ("g" : PyStr)] "g" 1 (makeWork sampleStore.root "g" sampleFiles).last).last

/-- Before the first checkpoint a build is not resumed, behind it it is. -/
theorem resume_iff_started : (Resumes (fun _ => none) sampleStore "g" "g" 1 [[0x61]] sampleFiles ↔
      Resumable (child sampleStore.root "g") "g" 1 (Blocks.chop 1 [0x61]) sampleFiles) ∧
    Resumes (fun _ => none) sampleStore "g" "g" 1 [[0x61]] sampleStarted := by
  obtain ⟨fs₁, ⟨-, rfl⟩, ready₁, dirs₁, -⟩ := returns_makeWork ready_sample
  obtain ⟨-, ready, holds⟩ := started_of_ready ready₁ dirs₁
  have named : checkArguments "g" 1 = .ok "g" := by decide
  constructor
  · exact (resume_iff (fun _ => none) sampleStore "g" "g" 1 named [0x61] [[0x61]] rfl).2 sampleFiles sampleFiles
      ready_sample (by decide) .start
  · exact (resume_iff (fun _ => none) sampleStore "g" "g" 1 named [0x61] [[0x61]] rfl).1 sampleStarted ready
      ⟨0, holds.checkpoint, holds.segment⟩

/-- A build over one byte that is stopped behind the append of its block is not resumed. -/
theorem not_resumes_ahead : ¬ ∀ t, Stops (sampleStore.build (fun _ => none) [.bytes [0x61]] "g" 1 false none) sampleFiles t →
    ∃ r, (sampleStore.build (fun _ => none) [.bytes [0x61]] "g" 1 true none t).result = .ok r := by
  intro succeeds
  have named : checkArguments "g" 1 = .ok "g" := by decide
  obtain ⟨named, one, max⟩ := checkArguments_eq_ok_iff.1 named
  obtain ⟨t, stop, ahead⟩ := @exists_stop_ahead _ _ _ _ _ _ [[0x61]] named one max ready_sample
    (by decide)
  obtain ⟨r, ran⟩ := succeeds t stop
  rw [show ([.bytes [0x61]] : List Chunk) = [[0x61]].map .bytes from rfl, ahead] at ran
  cases ran

end Streaming

end SimplicioFast
