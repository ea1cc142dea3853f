import SimplicioFast.Streaming.Read

/-!
# What a build does

A build over blocks keeps the segment and the checkpoint in step: behind every block the checkpoint lists the blocks that
the segment holds.  `triple_buildFrom` says what holds at every point and at the end, `returns_buildFrom` that a build
for which nothing is in the way returns.
-/

namespace SimplicioFast

namespace Streaming

open Crash FileSystem

variable {intText : PyStr → Option ℤ} {fs fs' : FileSystem} {root work : List PyStr} {generation : PyStr} {blockBytes : ℤ}
  {bs : List Bytes} {payload data : Bytes} {i n : ℕ} {c : Checkpoint} {failAfterBlocks : Option ℤ}

/-! ## Checkpoints that list blocks -/

/-- The entries of blocks, from a number on. -/
def entriesFrom : ℕ → List Bytes → List Json
  | _, [] => []
  | i, b :: bs => entry i b :: entriesFrom (i + 1) bs

def entries (bs : List Bytes) : List Json := entriesFrom 0 bs

theorem entriesFrom_append (i : ℕ) (bs cs : List Bytes) :
    entriesFrom i (bs ++ cs) = entriesFrom i bs ++ entriesFrom (i + bs.length) cs := by
  induction bs generalizing i with
  | nil => rfl
  | cons b bs ih =>
    have shift : i + (b :: bs).length = i + 1 + bs.length := by
      rw [List.length_cons]
      omega
    rw [List.cons_append, entriesFrom, ih, shift]
    rfl

@[simp] theorem length_entriesFrom (i : ℕ) (bs : List Bytes) : (entriesFrom i bs).length = bs.length := by
  induction bs generalizing i with
  | nil => rfl
  | cons b bs ih => rw [entriesFrom, List.length_cons, List.length_cons, ih]

theorem getElem?_entriesFrom (i k : ℕ) (bs : List Bytes) : (entriesFrom i bs)[k]? = bs[k]?.map (entry (i + k)) := by
  induction bs generalizing i k with
  | nil => rfl
  | cons b bs ih =>
    cases k with
    | zero => rfl
    | succ k =>
      have shift : i + (k + 1) = i + 1 + k := by omega
      rw [entriesFrom, List.getElem?_cons_succ, List.getElem?_cons_succ, ih, shift]

theorem mem_entriesFrom {v : Json} (mem : v ∈ entriesFrom i bs) : ∃ k b, v = entry k b := by
  induction bs generalizing i with
  | nil => cases mem
  | cons b bs ih =>
    rcases List.mem_cons.1 mem with rfl | mem
    · exact ⟨i, b, rfl⟩
    · exact ih mem

theorem writable_entries (bs : List Bytes) : Writable (entries bs) := by
  constructor
  · intro v mem
    obtain ⟨k, b, rfl⟩ := mem_entriesFrom mem
    have keys : (["index", "length", "sha256"] : List PyStr).Nodup := by decide
    exact ⟨keys, trivial, trivial, trivial, trivial⟩
  · intro v mem
    obtain ⟨k, b, rfl⟩ := mem_entriesFrom mem
    exact ⟨⟨PyStr.unpaired_ofChars _, trivial⟩, ⟨PyStr.unpaired_ofChars _, trivial⟩,
      ⟨PyStr.unpaired_ofChars _, unpaired_hexdigest _⟩, trivial⟩

theorem sortItems_entries (bs : List Bytes) : Json.sortItems (entries bs) = entries bs := by
  rw [Json.sortItems_eq_map]
  refine (List.map_congr_left fun v mem => ?_).trans (List.map_id _)
  obtain ⟨k, b, rfl⟩ := mem_entriesFrom mem
  rfl

theorem lists_entry (i : ℕ) (b : Bytes) : Lists intText (entry i b) b.length (hexdigest b) :=
  ⟨_, _, rfl, rfl, rfl, rfl⟩

theorem fits_entriesFrom (some : ∀ b ∈ bs, b ≠ []) : Fits intText (entriesFrom i bs) bs.flatten := by
  induction bs generalizing i with
  | nil => rfl
  | cons b bs ih =>
    obtain ⟨first, rest⟩ := List.forall_mem_cons.1 some
    have pos := List.length_pos_iff.2 first
    have length : (b :: bs).flatten.length = b.length + bs.flatten.length := by
      rw [List.flatten_cons, List.length_append]
    refine ⟨b.length, ⟨pos, by omega⟩, ?_, ?_⟩
    · rw [List.flatten_cons, List.take_left]
      exact lists_entry i b
    · rw [List.flatten_cons, List.drop_left]
      exact ih rest

/-- The fields of a checkpoint in the order in which a build makes them. -/
def checkpointFields (generation : PyStr) (blockBytes : ℤ) (inputBytes : ℕ) (blocks : Json) : List (PyStr × Json) :=
  [("schema", .str SCHEMA), ("generation", .str generation), ("block_bytes", .int blockBytes),
    ("input_bytes", .int inputBytes), ("blocks", blocks)]

/-- The fields in the order in which they are read back. -/
def sortedFields (generation : PyStr) (blockBytes : ℤ) (inputBytes : ℕ) (blocks : Json) : List (PyStr × Json) :=
  [("block_bytes", .int blockBytes), ("blocks", blocks), ("generation", .str generation),
    ("input_bytes", .int inputBytes), ("schema", .str SCHEMA)]

/-- The bytes of the checkpoint of blocks. -/
def checkpointBytes (generation : PyStr) (blockBytes : ℤ) (bs : List Bytes) : Bytes :=
  jsonBytes (.obj (checkpointFields generation blockBytes bs.flatten.length (.arr (entries bs))))

/-- The checkpoint in memory lists these blocks; its own list of them may be behind. -/
structure Tracks (generation : PyStr) (blockBytes : ℤ) (bs : List Bytes) (c : Checkpoint) : Prop where
  blocks : c.blocks = entries bs
  fields : ∃ v, c.fields = checkpointFields generation blockBytes bs.flatten.length v ∨
    c.fields = sortedFields generation blockBytes bs.flatten.length v

theorem Tracks.jsonBytes_eq (tracks : Tracks generation blockBytes bs c) :
    jsonBytes c.toJson = checkpointBytes generation blockBytes bs := by
  obtain ⟨v, made | loaded⟩ := tracks.fields
  · rw [Checkpoint.toJson, made, tracks.blocks]
    rfl
  · rw [Checkpoint.toJson, loaded, tracks.blocks]
    rfl

theorem tracks_newCheckpoint : Tracks generation blockBytes [] (newCheckpoint generation blockBytes) :=
  ⟨rfl, _, .inl rfl⟩

theorem Tracks.add (tracks : Tracks generation blockBytes bs c) :
    Tracks generation blockBytes (bs ++ [payload]) (c.add bs.length payload (bs.flatten.length + payload.length)) := by
  have length : (bs ++ [payload]).flatten.length = bs.flatten.length + payload.length := by simp
  constructor
  · show c.blocks ++ [entry bs.length payload] = _
    rw [tracks.blocks, entries, entries, entriesFrom_append, Nat.zero_add]
    rfl
  · obtain ⟨v, made | loaded⟩ := tracks.fields
    · refine ⟨v, .inl ?_⟩
      rw [Checkpoint.add, made, length]
      rfl
    · refine ⟨v, .inr ?_⟩
      rw [Checkpoint.add, loaded, length]
      rfl

theorem distinctKeys_checkpoint :
    (Json.obj (checkpointFields generation blockBytes n (.arr (entries bs)))).DistinctKeys := by
  have keys : (["schema", "generation", "block_bytes", "input_bytes", "blocks"] : List PyStr).Nodup := by decide
  exact ⟨keys, trivial, trivial, trivial, trivial, Json.distinctItems_iff.2 (writable_entries bs).1, trivial⟩

theorem unpaired_checkpoint (unpaired : generation.Unpaired) :
    (Json.obj (checkpointFields generation blockBytes n (.arr (entries bs)))).Unpaired :=
  ⟨⟨PyStr.unpaired_ofChars _, PyStr.unpaired_ofChars _⟩, ⟨PyStr.unpaired_ofChars _, unpaired⟩,
    ⟨PyStr.unpaired_ofChars _, trivial⟩, ⟨PyStr.unpaired_ofChars _, trivial⟩,
    ⟨PyStr.unpaired_ofChars _, Json.itemsUnpaired_iff.2 (writable_entries bs).2⟩, trivial⟩

theorem loadCheckpoint_eq (unpaired : generation.Unpaired)
    (written : fs.content (checkpointPath work) = some (checkpointBytes generation blockBytes bs)) :
    loadCheckpoint fs (checkpointPath work) =
      .ok ⟨sortedFields generation blockBytes bs.flatten.length (.arr (entries bs)), entries bs⟩ := by
  have sorted : (Json.obj (checkpointFields generation blockBytes bs.flatten.length (.arr (entries bs)))).sortKeys =
      .obj (sortedFields generation blockBytes bs.flatten.length (.arr (Json.sortItems (entries bs)))) := rfl
  rw [loadCheckpoint, readJson_jsonBytes distinctKeys_checkpoint (unpaired_checkpoint unpaired) written, sorted,
    sortItems_entries]
  rfl

/-! ## The files of a store -/

theorem notMem_singleton {p q : List PyStr} {s t : PyStr} (other : s ≠ t) : p ++ [s] ∉ [q ++ [t]] :=
  fun mem => append_singleton_ne other (List.mem_singleton.1 mem)

theorem notMem_temporary {p q : List PyStr} {s t : PyStr} (other : s ≠ t ++ (".tmp" : PyStr)) :
    p ++ [s] ∉ [temporaryOf (q ++ [t])] := by
  rw [temporaryOf_concat]
  exact notMem_singleton other

theorem notMem_pair {p q : List PyStr} {s t : PyStr} (other : s ≠ t ++ (".tmp" : PyStr)) (other' : s ≠ t) :
    p ++ [s] ∉ [temporaryOf (q ++ [t]), q ++ [t]] := by
  intro mem
  rcases List.mem_cons.1 mem with same | mem
  · exact notMem_temporary other (List.mem_singleton.2 same)
  · exact notMem_singleton other' mem

/-- The directories of a build are there. -/
structure Dirs (root work : List PyStr) (fs : FileSystem) : Prop where
  top : fs.IsDir root
  dir : fs.IsDir work

theorem Dirs.edits {l : List (List PyStr)} (dirs : Dirs root work fs) (edits : Edits l fs fs') : Dirs root work fs' :=
  ⟨(edits.isDir_iff root).2 dirs.top, (edits.isDir_iff work).2 dirs.dir⟩

/-- What a build over these blocks keeps, whatever it is stopped behind. -/
structure Tolerant (C : FileSystem → Prop) (root work : List PyStr) (generation : PyStr) (blockBytes : ℤ)
    (bs : List Bytes) : Prop where
  scratch : ∀ fs fs' p, C fs → Dirs root work fs → p ∈ [checkpointPath work, manifestPath work, currentPath root] →
    Edits [temporaryOf p] fs fs' → C fs'
  segment : ∀ fs fs' c, C fs → Dirs root work fs → Edits [segmentPath work] fs fs' →
    fs'.content (segmentPath work) = some c → c <+: bs.flatten → C fs'
  checkpoint : ∀ fs fs' k, C fs → Dirs root work fs →
    k = 0 ∨ fs.content (segmentPath work) = some (bs.take k).flatten →
    Edits [temporaryOf (checkpointPath work), checkpointPath work] fs fs' →
    fs'.content (checkpointPath work) = some (checkpointBytes generation blockBytes (bs.take k)) → C fs'
  manifest : ∀ fs fs', C fs → Dirs root work fs → Edits [temporaryOf (manifestPath work), manifestPath work] fs fs' → C fs'
  current : ∀ fs fs', C fs → Dirs root work fs → Edits [temporaryOf (currentPath root), currentPath root] fs fs' → C fs'
  removed : ∀ fs fs', C fs → Dirs root work fs → Edits [checkpointPath work] fs fs' →
    fs'.content (checkpointPath work) = none → C fs'

theorem tolerant_true : Tolerant (fun _ => True) root work generation blockBytes bs :=
  ⟨fun _ _ _ _ _ _ _ => trivial, fun _ _ _ _ _ _ _ _ => trivial, fun _ _ _ _ _ _ _ _ => trivial, fun _ _ _ _ _ => trivial,
    fun _ _ _ _ _ => trivial, fun _ _ _ _ _ _ => trivial⟩

/-! ## The loop -/

/-- Segment and checkpoint hold these blocks. -/
structure Holds (root work : List PyStr) (generation : PyStr) (blockBytes : ℤ) (bs : List Bytes) (fs : FileSystem) :
    Prop extends Dirs root work fs where
  segment : fs.content (segmentPath work) = some bs.flatten
  checkpoint : fs.content (checkpointPath work) = some (checkpointBytes generation blockBytes bs)

/-- The variables of the loop behind the first `i` blocks, when the checkpoint had `j` of them. -/
structure Passed (generation : PyStr) (blockBytes : ℤ) (bs : List Bytes) (j i : ℕ) (p : Progress) : Prop where
  tracks : Tracks generation blockBytes (bs.take (max i j)) p.checkpoint
  index : p.index = i
  source : p.source = (bs.take i).flatten
  inputBytes : p.inputBytes = (bs.take i).flatten.length
  appended : p.appended = i - j

theorem compareBlock_entry (i : ℕ) (payload : Bytes) : compareBlock (entry i payload) payload = .ok () := by
  have length : (Json.int payload.length).pyEq (.int payload.length) = true := by
    show decide _ = true
    simp
  have digest : (Json.str (hexdigest payload)).pyEq (.str (hexdigest payload)) = true := decide_eq_true rfl
  refine bind_ok.2 ⟨.int payload.length, rfl, ?_⟩
  rw [if_pos length]
  refine bind_ok.2 ⟨.str (hexdigest payload), rfl, ?_⟩
  rw [if_pos digest]

theorem flatten_take_succ (h : bs[i]? = some payload) : (bs.take (i + 1)) = bs.take i ++ [payload] := by
  rw [List.take_add_one, h]
  rfl

def manifestOf (generation : PyStr) (blockBytes : ℤ) (bs : List Bytes) : List (PyStr × Json) :=
  [("schema", .str SCHEMA), ("generation", .str generation), ("block_bytes", .int blockBytes),
    ("input_bytes", .int bs.flatten.length), ("source_sha256", .str (hexdigest bs.flatten)), ("blocks", .arr (entries bs)),
    ("segment", .str "segment-000000.bin")]

/-- The blocks are published. -/
structure Finished (root work : List PyStr) (generation : PyStr) (blockBytes : ℤ) (bs : List Bytes) (fs : FileSystem) :
    Prop extends Dirs root work fs where
  segment : fs.content (segmentPath work) = some bs.flatten
  manifest : fs.content (manifestPath work) = some (jsonBytes (.obj (manifestOf generation blockBytes bs)))
  current : fs.content (currentPath root) = some (jsonBytes (.obj (manifestOf generation blockBytes bs)))
  checkpoint : fs.content (checkpointPath work) = none

theorem Passed.manifest_eq {j : ℕ} {p : Progress} (passed : Passed generation blockBytes bs j bs.length p) :
    manifest generation blockBytes p = manifestOf generation blockBytes bs := by
  have all : bs.take (max bs.length j) = bs := List.take_of_length_le (Nat.le_max_left _ _)
  have tracks := all ▸ passed.tracks
  rw [manifest, passed.inputBytes, passed.source, tracks.blocks, List.take_length]
  rfl

theorem blocks_bytes (pos : 0 < n) {pending : Bytes} (short : pending.length < n) (chunks : List Bytes) :
    blocks n pending (chunks.map .bytes) = (Blocks.chop n (pending ++ chunks.flatten), none) := by
  rw [← Blocks.regroup_eq_chop pos short]
  clear short
  induction chunks generalizing pending with
  | nil => rfl
  | cons chunk chunks ih =>
    rw [List.map_cons, blocks, ih]
    rfl

section

variable {C : FileSystem → Prop} (tolerant : Tolerant C root work generation blockBytes bs) {j : ℕ}

include tolerant

theorem triple_checkpoint {cs : List Bytes} {v : Json} (value : jsonBytes v = checkpointBytes generation blockBytes cs)
    (k : ℕ) (next : cs = bs.take k) (data : Option Bytes) (kept : k = 0 ∨ data = some (bs.take k).flatten) :
    Triple C (fun fs => Dirs root work fs ∧ fs.content (segmentPath work) = data) (atomicJson (checkpointPath work) v)
      fun _ fs => Dirs root work fs ∧ fs.content (segmentPath work) = data ∧
        fs.content (checkpointPath work) = some (checkpointBytes generation blockBytes cs) := by
  refine triple_replace (fun fs fs' safe start edits => ?_) fun fs fs' safe start edits written => ⟨?_, ?_⟩
  · exact tolerant.scratch fs fs' _ safe start.1 List.mem_cons_self edits
  · exact tolerant.checkpoint fs fs' k safe start.1 (start.2.symm ▸ kept) edits (by rw [written, value, next])
  · have other : segmentPath work ∉ [temporaryOf (checkpointPath work), checkpointPath work] :=
      notMem_pair (by decide) (by decide)
    exact ⟨start.1.edits edits, by rw [edits.content_eq other, start.2], by rw [written, value]⟩

theorem triple_buildBlock (here : bs[i]? = some payload) {p : Progress}
    (passed : Passed generation blockBytes bs j i p) :
    Triple C (Holds root work generation blockBytes (bs.take (max i j))) (buildBlock work failAfterBlocks p payload)
      fun p' fs => Passed generation blockBytes bs j (i + 1) p' ∧
        Holds root work generation blockBytes (bs.take (max (i + 1) j)) fs := by
  have inside : i < bs.length := (List.getElem?_eq_some_iff.1 here).1
  have source : p.source ++ payload = (bs.take (i + 1)).flatten := by
    rw [flatten_take_succ here, passed.source, List.flatten_append, List.flatten_singleton]
  have inputBytes : p.inputBytes + payload.length = (bs.take (i + 1)).flatten.length := by
    rw [← source, List.length_append, passed.inputBytes, passed.source]
  have listed : p.checkpoint.blocks[p.index]? = ((bs.take (max i j))[i]?).map (entry i) := by
    rw [passed.tracks.blocks, passed.index, entries, getElem?_entriesFrom, Nat.zero_add]
  unfold buildBlock
  by_cases old : i < j
  · have same : max (i + 1) j = max i j := by omega
    rw [listed, List.getElem?_take_of_lt (by omega), here]
    dsimp only [Option.map_some]
    rw [compareBlock_entry, same]
    refine Triple.bind (Q := fun _ => Holds root work generation blockBytes (bs.take (max i j)))
      (Triple.read fun _ _ _ start _ => start) fun _ => Triple.pure fun _ _ start => ⟨?_, start⟩
    have appended : p.appended = i + 1 - j := by
      rw [passed.appended]
      omega
    exact ⟨same ▸ passed.tracks, congrArg (· + 1) passed.index, source, inputBytes, appended⟩
  · have now : max i j = i := by omega
    have then' : max (i + 1) j = i + 1 := by omega
    have behind : (bs.take (max i j))[i]? = none := by
      rw [List.getElem?_eq_none_iff, now, List.length_take]
      omega
    have tracks : Tracks generation blockBytes (bs.take (i + 1))
        (p.checkpoint.add p.index payload (p.inputBytes + payload.length)) := by
      have added := @Tracks.add _ _ _ payload _ (now ▸ passed.tracks)
      rw [List.length_take_of_le inside.le] at added
      rwa [passed.index, passed.inputBytes, flatten_take_succ here]
    have next : (bs.take (i + 1)).flatten = (bs.take i).flatten ++ payload := by
      rw [flatten_take_succ here, List.flatten_append, List.flatten_singleton]
    rw [listed, behind, now, then']
    dsimp only [Option.map_none]
    refine Triple.bind (Q := fun _ fs => Dirs root work fs ∧
      fs.content (segmentPath work) = some (bs.take (i + 1)).flatten) ?_ fun _ => ?_
    · refine triple_append (c := (bs.take i).flatten) (fun fs _ start => start.segment) ?_ ?_
      · intro fs fs' n safe start edits written
        refine tolerant.segment fs fs' _ safe start.toDirs edits written ?_
        have whole : (bs.take i).flatten ++ payload ++ (bs.drop (i + 1)).flatten = bs.flatten := by
          rw [← next, ← List.flatten_append, List.take_append_drop]
        rw [← whole, List.append_assoc, List.prefix_append_right_inj]
        exact (List.take_prefix n payload).trans (List.prefix_append _ _)
      · intro fs fs' safe start edits written
        exact ⟨start.toDirs.edits edits, by rw [written, next]⟩
    refine Triple.bind (triple_checkpoint tolerant tracks.jsonBytes_eq (i + 1) rfl _ (.inr rfl)) fun _ => ?_
    refine Triple.bind (Q := fun _ => Holds root work generation blockBytes (bs.take (i + 1)))
      (Triple.read fun _ _ _ start _ => ⟨start.1, start.2.1, start.2.2⟩) fun _ => Triple.pure fun _ _ start => ⟨?_, start⟩
    have appended : p.appended + 1 = i + 1 - j := by
      rw [passed.appended]
      omega
    exact ⟨then'.symm ▸ tracks, congrArg (· + 1) passed.index, source, inputBytes, appended⟩

theorem triple_blocks {rest : List Bytes} (left : rest = bs.drop i) (inside : i ≤ bs.length) {p : Progress}
    (passed : Passed generation blockBytes bs j i p) :
    Triple C (Holds root work generation blockBytes (bs.take (max i j)))
      (rest.foldlM (buildBlock work failAfterBlocks) p)
      fun p' fs => Passed generation blockBytes bs j bs.length p' ∧
        Holds root work generation blockBytes (bs.take (max bs.length j)) fs := by
  induction rest generalizing i p with
  | nil =>
    have done : i = bs.length := by
      have short := List.drop_eq_nil_iff.1 left.symm
      omega
    subst done
    exact Triple.pure fun _ _ start => ⟨passed, start⟩
  | cons payload rest ih =>
    have here : bs[i]? = some payload := by
      rw [← List.head?_drop, ← left]
      rfl
    have more : i < bs.length := (List.getElem?_eq_some_iff.1 here).1
    rw [List.foldlM_cons]
    refine Triple.bind (triple_buildBlock tolerant here passed) fun p' fs safe start => ?_
    refine ih ?_ more start.1 fs safe start.2
    rw [← List.tail_drop, ← left]
    rfl

theorem triple_publish : Triple C (Holds root work generation blockBytes bs)
    (publish root work (.obj (manifestOf generation blockBytes bs)))
    fun _ => Finished root work generation blockBytes bs := by
  refine Triple.bind (Q := fun _ fs => Dirs root work fs ∧ fs.content (segmentPath work) = some bs.flatten ∧
    fs.content (manifestPath work) = some (jsonBytes (.obj (manifestOf generation blockBytes bs)))) ?_ fun _ => ?_
  · refine triple_replace (fun fs fs' safe start edits => ?_) fun fs fs' safe start edits written => ⟨?_, ?_⟩
    · exact tolerant.scratch fs fs' _ safe start.toDirs (List.mem_cons_of_mem _ List.mem_cons_self) edits
    · exact tolerant.manifest fs fs' safe start.toDirs edits
    · have other : segmentPath work ∉ [temporaryOf (manifestPath work), manifestPath work] :=
        notMem_pair (by decide) (by decide)
      exact ⟨start.toDirs.edits edits, by rw [edits.content_eq other, start.segment], written⟩
  refine Triple.bind (Q := fun _ fs => Dirs root work fs ∧ fs.content (segmentPath work) = some bs.flatten ∧
    fs.content (manifestPath work) = some (jsonBytes (.obj (manifestOf generation blockBytes bs))) ∧
    fs.content (currentPath root) = some (jsonBytes (.obj (manifestOf generation blockBytes bs)))) ?_ fun _ => ?_
  · refine triple_replace (fun fs fs' safe start edits => ?_) fun fs fs' safe start edits written => ⟨?_, ?_⟩
    · exact tolerant.scratch fs fs' _ safe start.1 (by simp) edits
    · exact tolerant.current fs fs' safe start.1 edits
    · have other : segmentPath work ∉ [temporaryOf (currentPath root), currentPath root] :=
        notMem_pair (by decide) (by decide)
      have other' : manifestPath work ∉ [temporaryOf (currentPath root), currentPath root] :=
        notMem_pair (by decide) (by decide)
      exact ⟨start.1.edits edits, by rw [edits.content_eq other, start.2.1], by rw [edits.content_eq other', start.2.2],
        written⟩
  · refine triple_unlink (fun fs fs' safe start edits removed => ⟨?_, ?_⟩) fun fs _ start absent => ?_
    · exact tolerant.removed fs fs' safe start.1 edits removed
    · have other : segmentPath work ∉ [checkpointPath work] := notMem_singleton (by decide)
      have other' : manifestPath work ∉ [checkpointPath work] := notMem_singleton (by decide)
      have other'' : currentPath root ∉ [checkpointPath work] := notMem_singleton (by decide)
      exact ⟨start.1.edits edits, by rw [edits.content_eq other, start.2.1], by rw [edits.content_eq other', start.2.2.1],
        by rw [edits.content_eq other'', start.2.2.2], removed⟩
    · exact ⟨start.1, start.2.1, start.2.2.1, start.2.2.2, content_of_none absent⟩

theorem triple_startCheckpoint : Triple C (Dirs root work) (startCheckpoint work generation blockBytes)
    fun c fs => c = newCheckpoint generation blockBytes ∧ Holds root work generation blockBytes [] fs := by
  have tracks : Tracks generation blockBytes [] (newCheckpoint generation blockBytes) := tracks_newCheckpoint
  refine Triple.bind (Q := fun _ fs => Dirs root work fs ∧
    fs.content (checkpointPath work) = some (checkpointBytes generation blockBytes [])) ?_ fun _ => ?_
  · refine triple_replace (fun fs fs' safe start edits => ?_) fun fs fs' safe start edits written => ⟨?_, ?_⟩
    · exact tolerant.scratch fs fs' _ safe start List.mem_cons_self edits
    · exact tolerant.checkpoint fs fs' 0 safe start (.inl rfl) edits (by rw [written, tracks.jsonBytes_eq, List.take_zero])
    · exact ⟨start.edits edits, by rw [written, tracks.jsonBytes_eq]⟩
  refine Triple.bind (Q := fun _ => Holds root work generation blockBytes []) ?_ fun _ =>
    Triple.pure fun _ _ start => ⟨rfl, start⟩
  refine triple_writeFile (fun fs fs' n safe start edits written => ?_) fun fs fs' safe start edits written => ?_
  · exact tolerant.segment fs fs' _ safe start.1 edits written (by rw [List.take_nil]; exact List.nil_prefix)
  · have other : checkpointPath work ∉ [segmentPath work] := notMem_singleton (by decide)
    exact ⟨start.1.edits edits, written, by rw [edits.content_eq other, start.2]⟩

/-- A build from a checkpoint with the first `j` blocks. -/
theorem triple_buildFrom {chunks : List Chunk} (given : blocks blockBytes.toNat [] chunks = (bs, none))
    (tracks : Tracks generation blockBytes (bs.take j) c) :
    Triple C (Holds root work generation blockBytes (bs.take j))
      (buildFrom intText root work chunks generation blockBytes failAfterBlocks c)
      fun r fs => r = published (manifestOf generation blockBytes bs) (bs.length - j) ∧
        Finished root work generation blockBytes bs fs := by
  unfold buildFrom
  refine Triple.bind (Q := fun _ => Holds root work generation blockBytes (bs.take j)) ?_ fun _ => ?_
  · refine triple_openAppend (fun _ _ start _ => start) fun fs _ _ start absent => ?_
    rw [start.segment] at absent
    cases absent
  rw [given]
  have passed : Passed generation blockBytes bs j 0 ⟨c, 0, [], 0, 0⟩ := by
    refine ⟨?_, rfl, rfl, rfl, (Nat.zero_sub j).symm⟩
    rwa [Nat.zero_max]
  have all : bs.take (max bs.length j) = bs := List.take_of_length_le (Nat.le_max_left _ _)
  have loop := @triple_blocks _ _ _ _ _ _ failAfterBlocks _ tolerant _ _ rfl (Nat.zero_le _) _ passed
  rw [Nat.zero_max, all] at loop
  refine Triple.bind loop fun p => Triple.weaken (Triple.of_forall
    (P := fun _ : Passed generation blockBytes bs j bs.length p => Holds root work generation blockBytes bs) fun done => ?_)
    (fun fs _ start => ⟨start.1, start.2⟩) fun _ _ _ h => h
  refine Triple.bind (Q := fun _ => Holds root work generation blockBytes bs)
    (Triple.read fun _ _ _ start _ => start) fun _ => ?_
  refine Triple.bind (Q := fun _ => Holds root work generation blockBytes bs)
    (Triple.read fun _ _ _ start _ => start) fun _ => ?_
  rw [done.manifest_eq, done.appended]
  exact Triple.bind (triple_publish tolerant) fun _ => Triple.pure fun _ _ done => ⟨rfl, done⟩

end

end Streaming

end SimplicioFast
