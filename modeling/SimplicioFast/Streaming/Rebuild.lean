import SimplicioFast.Lib.JsonUnpaired
import SimplicioFast.Streaming.Resume

/-!
# Building again

A later build writes to the segment of the generation that is published in the same directory.  The published bytes stay
readable behind every step exactly when the build is harmless (`rebuild_iff`): it is refused, it is for another directory,
it has nothing to write, or it goes over the blocks that are there and appends none.
-/

namespace SimplicioFast

namespace Streaming

open Crash FileSystem

variable {intText : PyStr → Option ℤ} {store : StreamingBlockStore} {fs fs' t : FileSystem} {root work p q : List PyStr}
  {generation generation' name name' : PyStr} {blockBytes : ℤ} {bs : List Bytes} {chunks : List Chunk}
  {failAfterBlocks : Option ℤ} {C : FileSystem → Prop} {c : Checkpoint} {data data' b : Bytes} {vs : List Json}

/-! ## Parts of a build that change nothing -/

theorem bind_of_silent {α β : Type} {m : Prog FileSystem Raised α} {f : α → Prog FileSystem Raised β} {a : α}
    (silent : m fs = ⟨[], fs, .ok a⟩) : (m >>= f) fs = f a fs := by
  have result : (m fs).result = .ok a := by rw [silent]
  rw [Prog.bind_of_ok result, silent]
  rfl

theorem bind_of_refused {α β : Type} {m : Prog FileSystem Raised α} {f : α → Prog FileSystem Raised β} {e : Raised}
    (refused : m fs = ⟨[], fs, .error e⟩) : (m >>= f) fs = ⟨[], fs, .error e⟩ := by
  have result : (m fs).result = .error e := by rw [refused]
  rw [Prog.bind_of_error result, refused]

theorem makeWork_eq (closed : fs.Closed) (dirs : Dirs root (child root name) fs) :
    makeWork root name fs = ⟨[], fs, .ok ⟨⟩⟩ := by
  have there : fs.IsDir (workTarget root name) := by
    unfold workTarget
    split
    · exact dirs.top
    · exact dirs.dir
  have each (q : List PyStr) (above : q <+: workTarget root name) :
      ensureDir Raised.os q fs = ⟨[], fs, .ok ⟨⟩⟩ := by
    rw [ensureDir, if_pos (closed.isDir_of_above there above)]
  have all (l : List (List PyStr)) (above : ∀ q ∈ l, q <+: workTarget root name) :
      l.foldlM (fun _ q => ensureDir Raised.os q) ⟨⟩ fs = ⟨[], fs, .ok ⟨⟩⟩ := by
    induction l with
    | nil => rfl
    | cons q l ih =>
      obtain ⟨first, above⟩ := List.forall_mem_cons.1 above
      rw [List.foldlM_cons, bind_of_silent (each q first), ih above]
  show makedirs Raised.os (workTarget root name) fs = _
  rw [makedirs, bind_of_silent (all _ fun q mem => ?_), each _ (List.prefix_refl _)]
  exact ((List.mem_inits _ _).1 (List.mem_of_mem_tail mem)).trans (List.dropLast_prefix _)

/-- The blocks of a source are compared with those of a checkpoint, as far as both go. -/
def compareBlocks : List Json → List Bytes → Except Raised Unit
  | _, [] => .ok ()
  | [], _ :: _ => .ok ()
  | v :: vs, b :: bs => do
    compareBlock v b
    compareBlocks vs bs

/-- The variables of the loop behind blocks that were compared only. -/
def Progress.skip (p : Progress) (bs : List Bytes) : Progress :=
  { p with index := p.index + bs.length, source := p.source ++ bs.flatten, inputBytes := p.inputBytes + bs.flatten.length }

theorem foldlM_compare {p : Progress} (short : bs.length ≤ (p.checkpoint.blocks.drop p.index).length) :
    bs.foldlM (buildBlock work failAfterBlocks) p fs =
      ⟨[], fs, (compareBlocks (p.checkpoint.blocks.drop p.index) bs).map fun _ => p.skip bs⟩ := by
  induction bs generalizing p with
  | nil =>
    have same : p.skip [] = p := by simp [Progress.skip]
    rw [same, compareBlocks]
    rfl
  | cons b bs ih =>
    obtain ⟨v, rest⟩ : ∃ v, p.checkpoint.blocks[p.index]? = some v := by
      rw [List.length_drop, List.length_cons] at short
      exact ⟨_, List.getElem?_eq_getElem (by omega)⟩
    have drop : p.checkpoint.blocks.drop p.index = v :: p.checkpoint.blocks.drop (p.index + 1) :=
      List.drop_eq_getElem?_toList_append.trans (by rw [rest]; rfl)
    have turn : buildBlock work failAfterBlocks p b fs = ⟨[], fs, (compareBlock v b).map fun _ => p.skip [b]⟩ := by
      have skip : p.skip [b] = { p with
          index := p.index + 1, source := p.source ++ b, inputBytes := p.inputBytes + b.length } := by
        simp [Progress.skip]
      unfold buildBlock
      rw [rest, skip]
      dsimp only
      cases compareBlock v b with
      | error e => rfl
      | ok u => rfl
    rw [List.foldlM_cons, drop, compareBlocks]
    cases compared : compareBlock v b with
    | error e =>
      rw [compared] at turn
      rw [bind_of_refused turn]
      rfl
    | ok u =>
      rw [compared] at turn
      rw [bind_of_silent turn, ih]
      · have all : (p.skip [b]).skip bs = p.skip (b :: bs) := by
          simp [Progress.skip, Nat.add_assoc, Nat.add_comm 1]
        rw [all]
        rfl
      · show bs.length ≤ (p.checkpoint.blocks.drop (p.index + 1)).length
        rw [drop] at short
        exact Nat.le_of_succ_le_succ short

theorem compareBlocks_take (vs : List Json) (bs : List Bytes) :
    compareBlocks vs (bs.take vs.length) = compareBlocks vs bs := by
  induction vs generalizing bs with
  | nil =>
    cases bs with
    | nil => rfl
    | cons b bs => rfl
  | cons v vs ih =>
    cases bs with
    | nil => rfl
    | cons b bs => rw [List.length_cons, List.take_succ_cons, compareBlocks, compareBlocks, ih]

/-- The part of a build behind the loop. -/
def finish (intText : PyStr → Option ℤ) (root work : List PyStr) (generation : PyStr) (blockBytes : ℤ)
    (raised : Option Raised) (p : Progress) : Prog FileSystem Raised Json := do
  Prog.read fun _ => match raised with
    | some raised => .error raised
    | none => .ok PUnit.unit
  Prog.read fun _ => (checkEnd intText blockBytes.toNat p).map fun _ => PUnit.unit
  publish root work (.obj (manifest generation blockBytes p))
  return published (manifest generation blockBytes p) p.appended

theorem buildFrom_eq (there : (fs.content (segmentPath work)).isSome) :
    buildFrom intText root work chunks generation blockBytes failAfterBlocks c fs =
      (((blocks blockBytes.toNat [] chunks).1.take c.blocks.length).foldlM (buildBlock work failAfterBlocks)
          ⟨c, 0, [], 0, 0⟩ >>= fun p =>
        ((blocks blockBytes.toNat [] chunks).1.drop c.blocks.length).foldlM (buildBlock work failAfterBlocks) p >>=
          finish intText root work generation blockBytes (blocks blockBytes.toNat [] chunks).2) fs := by
  obtain ⟨b, there⟩ := Option.isSome_iff_exists.1 there
  obtain ⟨result, last⟩ := @returns_openAppend _ Raised.os _ _ _ there
  have opened : openAppend Raised.os (segmentPath work) fs = ⟨[], fs, .ok ⟨⟩⟩ := by
    rw [openAppend, content_eq_some_iff.1 there]
  have split : (blocks blockBytes.toNat [] chunks).1.foldlM (buildBlock work failAfterBlocks) ⟨c, 0, [], 0, 0⟩ =
      ((blocks blockBytes.toNat [] chunks).1.take c.blocks.length).foldlM (buildBlock work failAfterBlocks)
        ⟨c, 0, [], 0, 0⟩ >>= fun p =>
          ((blocks blockBytes.toNat [] chunks).1.drop c.blocks.length).foldlM (buildBlock work failAfterBlocks) p := by
    rw [← List.foldlM_append, List.take_append_drop]
  unfold buildFrom
  rw [bind_of_silent opened, split, bind_assoc]
  rfl

theorem foldlM_take : ((bs.take c.blocks.length).foldlM (buildBlock work failAfterBlocks) ⟨c, 0, [], 0, 0⟩ fs) =
    ⟨[], fs, (compareBlocks c.blocks bs).map fun _ =>
      (⟨c, 0, [], 0, 0⟩ : Progress).skip (bs.take c.blocks.length)⟩ := by
  have short : (bs.take c.blocks.length).length ≤ (c.blocks.drop 0).length := by
    rw [List.drop_zero]
    exact List.length_take_le _ _
  have run := @foldlM_compare fs work _ failAfterBlocks ⟨c, 0, [], 0, 0⟩ short
  rw [List.drop_zero, compareBlocks_take] at run
  exact run

theorem buildFrom_finish (there : (fs.content (segmentPath work)).isSome)
    (compared : compareBlocks c.blocks (blocks blockBytes.toNat [] chunks).1 = .ok ())
    (short : (blocks blockBytes.toNat [] chunks).1.length ≤ c.blocks.length) :
    buildFrom intText root work chunks generation blockBytes failAfterBlocks c fs =
      finish intText root work generation blockBytes (blocks blockBytes.toNat [] chunks).2
        ((⟨c, 0, [], 0, 0⟩ : Progress).skip (blocks blockBytes.toNat [] chunks).1) fs := by
  have loop := @foldlM_take fs work (blocks blockBytes.toNat [] chunks).1 failAfterBlocks c
  rw [compared, List.take_of_length_le short] at loop
  rw [buildFrom_eq there, List.take_of_length_le short, bind_of_silent loop, List.drop_eq_nil_of_le short, List.foldlM_nil,
    pure_bind]

/-! ## What every build keeps -/

/-- What does not depend on the files of a build. -/
structure Keeps (C : FileSystem → Prop) (root work : List PyStr) : Prop where
  edits : ∀ fs fs' l, C fs → Edits l fs fs' → (∀ p ∈ l, p ∈ storeFiles root work) → C fs'
  made : ∀ fs q, C fs → fs.get? q = none → C (fs.set q .dir)

section

variable (keeps : Keeps C root work)

include keeps

theorem triple_atomicJson_keep (mem : p ∈ [checkpointPath work, manifestPath work, currentPath root]) (v : Json)
    (P : FileSystem → Prop) (stays : ∀ fs fs', P fs → Edits [temporaryOf p, p] fs fs' → P fs') :
    Triple C P (atomicJson p v) fun _ => P := by
  have file := mem_storeFiles mem
  refine triple_replace (fun fs fs' safe _ edits => keeps.edits fs fs' _ safe edits ?_)
    fun fs fs' safe start edits _ => ⟨keeps.edits fs fs' _ safe edits ?_, stays fs fs' start edits⟩
  · intro q same
    rw [List.mem_singleton.1 same]
    exact temporaryOf_mem_storeFiles mem
  · intro q same
    rcases List.mem_pair.1 same with rfl | rfl
    · exact temporaryOf_mem_storeFiles mem
    · exact file

theorem triple_buildBlock_keep (p : Progress) (payload : Bytes) :
    Triple C (fun fs => ∃ b, fs.content (segmentPath work) = some b) (buildBlock work failAfterBlocks p payload)
      fun _ fs => ∃ b, fs.content (segmentPath work) = some b := by
  unfold buildBlock
  split
  · exact Triple.bind (Q := fun _ fs => ∃ b, fs.content (segmentPath work) = some b)
      (Triple.read fun _ _ _ start _ => start) fun _ => Triple.pure fun _ _ start => start
  · refine Triple.of_forall fun b => Triple.bind (Q := fun _ fs => ∃ b, fs.content (segmentPath work) = some b) ?_ fun _ =>
      Triple.bind ?_ fun _ => Triple.bind (Q := fun _ fs => ∃ b, fs.content (segmentPath work) = some b)
        (Triple.read fun _ _ _ start _ => start) fun _ => Triple.pure fun _ _ start => start
    · refine triple_append (c := b) (fun fs _ start => start) (fun fs fs' n safe _ edits _ => ?_)
        fun fs fs' _ _ _ written => ⟨_, written⟩
      exact keeps.edits fs fs' _ safe edits (by simp [storeFiles])
    · refine triple_atomicJson_keep keeps List.mem_cons_self _ _ fun fs fs' start edits => ?_
      have other : segmentPath work ∉ [temporaryOf (checkpointPath work), checkpointPath work] :=
        notMem_pair (by decide) (by decide)
      rwa [edits.content_eq other]

theorem triple_blocks_keep (bs : List Bytes) (p : Progress) :
    Triple C (fun fs => ∃ b, fs.content (segmentPath work) = some b) (bs.foldlM (buildBlock work failAfterBlocks) p)
      fun _ _ => True := by
  induction bs generalizing p with
  | nil => exact Triple.pure fun _ _ _ => trivial
  | cons b bs ih =>
    rw [List.foldlM_cons]
    exact (triple_buildBlock_keep keeps p b).bind fun p' => ih p'

theorem triple_publish_keep (v : Json) : Triple C (fun _ => True) (publish root work v) fun _ _ => True := by
  refine Triple.bind (triple_atomicJson_keep keeps (by simp) v _ fun _ _ _ _ => trivial) fun _ => ?_
  refine Triple.bind (triple_atomicJson_keep keeps (by simp) v _ fun _ _ _ _ => trivial) fun _ => ?_
  exact triple_unlink (fun fs fs' safe _ edits _ => ⟨keeps.edits fs fs' _ safe edits (by simp [storeFiles]), trivial⟩)
    fun _ _ _ _ => trivial

theorem triple_finish_keep (raised : Option Raised) (p : Progress) :
    Triple C (fun _ => True) (finish intText root work generation blockBytes raised p) fun _ _ => True :=
  Triple.bind (Triple.read fun _ _ _ _ _ => trivial) fun _ => Triple.bind (Triple.read fun _ _ _ _ _ => trivial) fun _ =>
    (triple_publish_keep keeps _).bind fun _ => Triple.pure fun _ _ _ => trivial

theorem triple_startCheckpoint_keep : Triple C (fun _ => True) (startCheckpoint work generation blockBytes)
    fun _ _ => True := by
  refine Triple.bind (triple_atomicJson_keep keeps (by simp) _ _ fun _ _ _ _ => trivial) fun _ =>
    Triple.bind (Q := fun _ _ => True) ?_ fun _ => Triple.pure fun _ _ _ => trivial
  exact triple_writeFile (fun fs fs' _ safe _ edits _ => keeps.edits fs fs' _ safe edits (by simp [storeFiles]))
    fun _ _ _ _ _ _ => trivial

theorem triple_buildFrom_keep : Triple C (fun _ => True)
    (buildFrom intText root work chunks generation blockBytes failAfterBlocks c) fun _ _ => True := by
  refine Triple.bind (Q := fun _ fs => ∃ b, fs.content (segmentPath work) = some b) ?_ fun _ =>
    (triple_blocks_keep keeps _ _).bind fun p => triple_finish_keep keeps _ p
  refine triple_openAppend (fun fs _ _ there => Option.isSome_iff_exists.1 there) fun fs fs' safe _ _ edits written => ?_
  exact ⟨keeps.edits fs fs' _ safe edits (by simp [storeFiles]), _, written⟩

end

theorem triple_build_keep (keeps : ∀ name, checkArguments generation blockBytes = .ok name →
      Keeps C store.root (child store.root name)) (resume : Bool) :
    Triple C (fun _ => True) (store.build intText chunks generation blockBytes resume failAfterBlocks) fun _ _ => True := by
  unfold StreamingBlockStore.build
  refine Triple.bind (Q := fun name _ => checkArguments generation blockBytes = .ok name ∧ True)
    (Triple.read fun _ _ _ _ accepted => ⟨accepted, trivial⟩) fun name => Triple.of_and fun accepted => ?_
  refine Triple.bind (Q := fun _ _ => True) ?_ fun _ => ?_
  · exact (triple_makedirs (I := fun _ => True) fun fs q safe _ _ absent _ =>
      ⟨(keeps name accepted).made fs q safe absent, trivial⟩).weaken (fun _ _ h => h) fun _ _ _ _ => trivial
  · cases resume with
    | false => exact (triple_startCheckpoint_keep (keeps name accepted)).bind fun c =>
        triple_buildFrom_keep (keeps name accepted)
    | true => exact Triple.bind (Triple.read fun _ _ _ _ _ => trivial) fun c =>
        triple_buildFrom_keep (keeps name accepted)

/-! ## What is published stays -/

namespace Published

variable (published : Published intText root work data fs)

include published

theorem edits {l : List (List PyStr)} (edits : Edits l fs fs') (segment : segmentPath work ∉ l)
    (manifest : manifestPath work ∉ l) : Published intText root work data fs' where
  top := (edits.isDir_iff root).2 published.top
  dir := (edits.isDir_iff work).2 published.dir
  segment := (edits.content_eq segment).trans published.segment
  manifest := by
    rw [edits.content_eq manifest]
    exact published.manifest

theorem set_dir (absent : fs.get? q = none) : Published intText root work data (fs.set q .dir) := by
  have dir {p : List PyStr} (there : fs.IsDir p) : IsDir (fs.set q .dir) p := by
    rw [IsDir, Dict.get?_set]
    split
    · rfl
    · exact there
  have content {p : List PyStr} {b : Bytes} (there : fs.content p = some b) : content (fs.set q .dir) p = some b := by
    have other : p ≠ q := by
      rintro rfl
      rw [content_eq_some_iff.1 there] at absent
      cases absent
    exact (content_congr (Dict.get?_set_of_ne _ _ other)).trans there
  obtain ⟨m, written, describes⟩ := published.manifest
  exact ⟨dir published.top, dir published.dir, content published.segment, m, content written, describes⟩

end Published

theorem notMem_storeFiles_of_ne {work' : List PyStr} (other : work' ≠ work) :
    segmentPath work ∉ storeFiles root work' ∧ manifestPath work ∉ storeFiles root work' := by
  have apart (s : PyStr) (t : PyStr) : work ++ [s] ≠ work' ++ [t] := append_singleton_ne_of_ne (Ne.symm other)
  have names {s t : PyStr} (h : s ≠ t) : work ++ [s] ≠ root ++ [t] := append_singleton_ne h
  have segment : ("segment-000000.bin" : PyStr) ≠ "current.json" ∧
      ("segment-000000.bin" : PyStr) ≠ ("current.json" : PyStr) ++ (".tmp" : PyStr) := by decide
  have manifest : ("manifest.json" : PyStr) ≠ "current.json" ∧
      ("manifest.json" : PyStr) ≠ ("current.json" : PyStr) ++ (".tmp" : PyStr) := by decide
  simp only [storeFiles, checkpointPath, segmentPath, manifestPath, currentPath, temporaryOf_concat, List.mem_cons,
    List.not_mem_nil, or_false, not_or]
  exact ⟨⟨apart _ _, apart _ _, apart _ _, apart _ _, apart _ _, names segment.1, names segment.2⟩,
    apart _ _, apart _ _, apart _ _, apart _ _, apart _ _, names manifest.1, names manifest.2⟩

theorem keeps_published {work' : List PyStr} (other : work' ≠ work) :
    Keeps (Published intText root work data) root work' where
  edits _ _ _ published edits inside := published.edits edits
    (fun mem => (notMem_storeFiles_of_ne other).1 (inside _ mem)) fun mem => (notMem_storeFiles_of_ne other).2 (inside _ mem)
  made _ _ published absent := published.set_dir absent

/-! ## Builds for the same directory -/

theorem triple_blocked (keep : ∀ fs', Edits [temporaryOf p] fs fs' → C fs')
    (blocked : fs.IsDir (temporaryOf p) ∨ fs.IsDir p) (v : Json) : Triple C (· = fs) (atomicJson p v) fun _ _ => False := by
  rcases blocked with dir | dir
  · intro s safe start
    subst start
    have refused : write Raised.os (temporaryOf p) (jsonBytes v) s = ⟨[], s, .error (.os .isADirectory)⟩ := by
      rw [write, if_pos dir]
      rfl
    rw [atomicJson, replace, bind_of_refused refused]
    exact ⟨fun t mem => absurd mem List.not_mem_nil, safe, nofun⟩
  · refine triple_replace (fun s s' _ start edits => keep s' (start ▸ edits)) fun s s' _ start edits written => ?_
    subst start
    exact absurd ((edits.isDir_iff p).2 dir) (not_isDir_of_content written)

theorem triple_bind_of_false {α β : Type} {P : FileSystem → Prop} {m : Prog FileSystem Raised α}
    {f : α → Prog FileSystem Raised β} {Q : β → FileSystem → Prop} (first : Triple C P m fun _ _ => False) :
    Triple C P (m >>= f) Q :=
  first.bind fun _ _ _ none => none.elim

theorem triple_publish_blocked (published : Published intText root work data fs)
    (blocked : fs.IsDir (temporaryOf (manifestPath work))) (m : Json) :
    Triple (Published intText root work data) (· = fs) (publish root work m) fun _ _ => False := by
  unfold publish
  refine triple_bind_of_false (triple_blocked (fun s edits => ?_) (.inl blocked) m)
  exact published.edits edits (notMem_temporary (by decide)) (notMem_temporary (by decide))

theorem triple_publish_same {m : Json} (describes : Describes intText m data) :
    Triple (Published intText root work data) (fun _ => True) (publish root work m) fun _ _ => True := by
  refine Triple.bind (Q := fun _ _ => True) ?_ fun _ => Triple.bind (Q := fun _ _ => True) ?_ fun _ => ?_
  · refine triple_replace (fun fs fs' published _ edits => published.edits edits (notMem_temporary (by decide))
      (notMem_temporary (by decide))) fun fs fs' published _ edits written => ⟨?_, trivial⟩
    exact ⟨(edits.isDir_iff root).2 published.top, (edits.isDir_iff work).2 published.dir,
      (edits.content_eq (notMem_pair (by decide) (by decide))).trans published.segment, m, written, describes⟩
  · refine triple_replace (fun fs fs' published _ edits => published.edits edits (notMem_temporary (by decide))
      (notMem_temporary (by decide))) fun fs fs' published _ edits _ => ⟨?_, trivial⟩
    exact published.edits edits (notMem_pair (by decide) (by decide)) (notMem_pair (by decide) (by decide))
  · refine triple_unlink (fun fs fs' published _ edits _ => ⟨?_, trivial⟩) fun _ _ _ _ => trivial
    exact published.edits edits (notMem_singleton (by decide)) (notMem_singleton (by decide))

theorem fits_of_validateBlocks {i cursor e : ℕ} (valid : validateBlocks intText data i cursor vs = .ok e)
    (whole : e = data.length) : Fits intText vs (data.drop cursor) := by
  induction vs generalizing i cursor with
  | nil =>
    cases valid
    rw [whole, List.drop_length]
    rfl
  | cons v vs ih =>
    obtain ⟨fields, rfl⟩ : ∃ fields, v = .obj fields := by
      obtain ⟨stored, found, -⟩ := bind_ok.1 valid
      cases v with
      | obj fields => exact ⟨fields, rfl⟩
      | _ => cases found
    obtain ⟨stored, -, valid⟩ := bind_ok.1 valid
    obtain ⟨⟨⟩, -, valid⟩ := bind_ok.1 valid
    obtain ⟨length, read, valid⟩ := bind_ok.1 valid
    obtain ⟨⟨⟩, bounds, valid⟩ := bind_ok.1 valid
    obtain ⟨digest, sha, valid⟩ := bind_ok.1 valid
    obtain ⟨⟨⟩, same, valid⟩ := bind_ok.1 valid
    obtain ⟨x, there, int⟩ := bind_ok.1 read
    have place : Dict.find fields "length" = some x := by
      rw [subscript] at there
      split at there
      · rename_i y place
        rw [place, Except.ok.inj there]
      · cases there
    obtain ⟨one, inside⟩ := Bool.and_eq_true_iff.1 (check_eq_ok_iff.1 bounds)
    replace one := of_decide_eq_true one
    replace inside := of_decide_eq_true inside
    have width : cursor + length.toNat - cursor = length.toNat := by omega
    have whole' : (length.toNat : ℤ) = length := Int.toNat_of_nonneg (by omega)
    have digest' : Dict.find fields "sha256" = some (.str (hexdigest ((data.drop cursor).take length.toNat))) := by
      rw [Except.ok.inj sha, isEqual_str_iff.1 (check_eq_ok_iff.1 same), Bytes.slice, width]
    refine ⟨length.toNat, ⟨by omega, ?_⟩, ⟨fields, x, rfl, place, ?_, digest'⟩, ?_⟩
    · rw [List.length_drop]
      omega
    · rw [int, whole']
    · rw [List.drop_drop]
      exact ih valid

theorem sumLengths_of_fits (fits : Fits intText vs data) : sumLengths intText vs = .ok data.length := by
  induction vs generalizing data with
  | nil =>
    rw [show data = [] from fits]
    rfl
  | cons v vs ih =>
    obtain ⟨n, ⟨-, inside⟩, ⟨fields, x, rfl, place, int, -⟩, fits⟩ := fits
    have read : (subscript (.obj fields) "length").bind (intOf intText) = .ok n := by
      rw [subscript, place]
      exact int
    refine bind_ok.2 ⟨(n : ℤ), read, bind_ok.2 ⟨_, ih fits, ?_⟩⟩
    rw [List.length_drop]
    refine congrArg Except.ok ?_
    omega

theorem accepted_of_resumeCheckpoint (segment : fs.content (segmentPath work) = some data)
    (accepted : resumeCheckpoint intText work generation blockBytes fs = .ok c) :
    Writable c.blocks ∧ Fits intText c.blocks data := by
  obtain ⟨checkpoint, loaded, accepted⟩ := bind_ok.1 accepted
  obtain ⟨⟨⟩, -, accepted⟩ := bind_ok.1 accepted
  obtain ⟨⟨⟩, valid, same⟩ := bind_ok.1 accepted
  obtain rfl : checkpoint = c := Except.ok.inj same
  constructor
  · obtain ⟨v, read, checked⟩ := bind_ok.1 loaded
    have loads : v.DistinctKeys ∧ v.Unpaired := by
      unfold readJson at read
      split at read
      · cases read
      · cases read
      · split at read
        · cases read
        · rename_i text decoded
          split at read
          · cases read
          · rename_i w loads
            obtain rfl : w = v := Except.ok.inj read
            exact ⟨Json.distinctKeys_of_loads loads, Json.unpaired_of_loads (Json.scalars_of_decode decoded) loads⟩
    unfold checkpointOf at checked
    split at checked
    · rename_i fields
      split at checked
      · rename_i blocks schema found
        obtain rfl := Except.ok.inj checked
        have mem : (("blocks" : PyStr), Json.arr blocks) ∈ fields := Dict.mem_of_lookup found
        have distinct := Json.distinctFields_iff.1 loads.1.2 _ mem
        have unpaired := (Json.fieldUnpaired_iff.1 (Json.fieldsUnpaired_iff.1 loads.2 _ mem)).2
        exact ⟨Json.distinctItems_iff.1 distinct, Json.itemsUnpaired_iff.1 unpaired⟩
      · cases checked
    · cases checked
  · rw [validateExisting, content_eq_some_iff.1 segment] at valid
    obtain ⟨cursor, blocks, whole⟩ := bind_ok.1 valid
    have fits := fits_of_validateBlocks blocks (of_decide_eq_true (check_eq_ok_iff.1 whole))
    rwa [List.drop_zero] at fits

theorem eq_ok_of_orMissing {missing : Raised} {r : Except Raised Bytes} (read : orMissing missing r = .ok b) :
    r = .ok b := by
  unfold orMissing at read
  split at read
  · cases read
  · exact read

theorem content_of_contentAt (read : contentAt t p = .ok b) : t.content p = some b := by
  unfold contentAt at read
  split at read
  · cases read
  · cases read
  · rename_i d found
    rw [content_eq_some_iff.2 found, Except.ok.inj read]

theorem content_of_readAll (named : Named generation name) (top : t.IsDir store.root)
    (dir : t.IsDir (child store.root name)) {p : Progress} (writable : Writable p.checkpoint.blocks)
    (unpaired : generation'.Unpaired)
    (written : t.content (manifestPath (child store.root name)) = some (jsonBytes (.obj (manifest generation' blockBytes p))))
    (read : store.readAll generation t = .ok data) :
    t.content (segmentPath (child store.root name)) = some data ∧ hexdigest p.source = hexdigest data := by
  have loaded : loadManifest store generation t = .ok (Json.obj (manifest generation' blockBytes p)).sortKeys := by
    rw [loadManifest, fileAt_eq named plain_manifest top dir]
    exact readJson_jsonBytes (distinctKeys_manifest writable) (unpaired_manifest writable unpaired) written
  have distinct := @distinctKeys_manifest generation' blockBytes _ writable
  have get (k : PyStr) {v : Json} (found : (Json.obj (manifest generation' blockBytes p)).get? k = some v) :
      subscript (Json.obj (manifest generation' blockBytes p)).sortKeys k = .ok v.sortKeys := by
    refine subscript_of_get? ?_
    rw [Json.get?_sortKeys distinct, found, Option.map_some]
  have segment := get "segment" (v := .str "segment-000000.bin") rfl
  have digest := get "source_sha256" (v := .str (hexdigest p.source)) rfl
  obtain ⟨m, same, read⟩ := bind_ok.1 read
  obtain rfl := Except.ok.inj (loaded.symm.trans same)
  obtain ⟨s, name', read⟩ := bind_ok.1 read
  have plain : s = ("segment-000000.bin" : PyStr) := by
    rw [segmentName, segment] at name'
    exact (Except.ok.inj name').symm
  subst plain
  obtain ⟨d, content, read⟩ := bind_ok.1 read
  obtain ⟨intact, compared, read⟩ := bind_ok.1 read
  obtain ⟨⟨⟩, checked, read⟩ := bind_ok.1 read
  obtain rfl : d = data := Except.ok.inj read
  obtain rfl : intact = true := check_eq_ok_iff.1 checked
  constructor
  · rw [fileAt_eq named plain_segment top dir] at content
    exact content_of_contentAt (eq_ok_of_orMissing content)
  · obtain ⟨length, -, compared⟩ := bind_ok.1 compared
    split at compared
    · rw [digest] at compared
      exact (of_decide_eq_true (Except.ok.inj compared)).symm
    · cases compared

/-! ## Which builds are harmless -/

/-- What a build of another generation, or of this one again, must be like for the published bytes to stay readable at
every point. -/
def Harmless (intText : PyStr → Option ℤ) (store : StreamingBlockStore) (name : PyStr) (data : Bytes) (chunks : List Chunk)
    (generation : PyStr) (blockBytes : ℤ) (resume : Bool) (fs : FileSystem) : Prop :=
  ∀ name', checkArguments generation blockBytes = .ok name' → child store.root name' = child store.root name →
    match resume with
    | false => (fs.IsDir (temporaryOf (checkpointPath (child store.root name))) ∨
        fs.IsDir (checkpointPath (child store.root name))) ∨ data = [] ∧ (blocks blockBytes.toNat [] chunks).1 = []
    | true => ∀ c, resumeCheckpoint intText (child store.root name) generation blockBytes fs = .ok c →
      compareBlocks c.blocks (blocks blockBytes.toNat [] chunks).1 = .ok () →
        (blocks blockBytes.toNat [] chunks).1.length ≤ c.blocks.length ∧
          ((blocks blockBytes.toNat [] chunks).2 = none → (blocks blockBytes.toNat [] chunks).1.length = c.blocks.length →
            fs.IsDir (temporaryOf (manifestPath (child store.root name))) ∨
              hexdigest (blocks blockBytes.toNat [] chunks).1.flatten = hexdigest data)

section

variable (published : Published intText store.root (child store.root name) data fs) (closed : fs.Closed)
  (accepted : checkArguments generation' blockBytes = .ok name') (same : child store.root name' = child store.root name)

include published closed accepted same

theorem build_start_eq : store.build intText chunks generation' blockBytes false failAfterBlocks fs =
    (startCheckpoint (child store.root name) generation' blockBytes >>= fun c =>
      buildFrom intText store.root (child store.root name) chunks generation' blockBytes failAfterBlocks c) fs := by
  have there : Dirs store.root (child store.root name') fs := ⟨published.top, same ▸ published.dir⟩
  have checked : (Prog.read fun _ => checkArguments generation' blockBytes : Prog FileSystem Raised PyStr) fs =
      ⟨[], fs, .ok name'⟩ := by
    rw [Prog.read, accepted]
  unfold StreamingBlockStore.build
  rw [bind_of_silent checked, bind_of_silent (makeWork_eq closed there), same]

theorem build_resume_eq : store.build intText chunks generation' blockBytes true failAfterBlocks fs =
    (Prog.read (resumeCheckpoint intText (child store.root name) generation' blockBytes) >>= fun c =>
      buildFrom intText store.root (child store.root name) chunks generation' blockBytes failAfterBlocks c) fs := by
  have there : Dirs store.root (child store.root name') fs := ⟨published.top, same ▸ published.dir⟩
  have checked : (Prog.read fun _ => checkArguments generation' blockBytes : Prog FileSystem Raised PyStr) fs =
      ⟨[], fs, .ok name'⟩ := by
    rw [Prog.read, accepted]
  unfold StreamingBlockStore.build
  rw [bind_of_silent checked, bind_of_silent (makeWork_eq closed there), same]

end

theorem triple_finish_same (published : Published intText root work data fs) {raised : Option Raised} {p : Progress}
    (ready : raised = none →
      checkEnd intText blockBytes.toNat p = .ok () →
        fs.IsDir (temporaryOf (manifestPath work)) ∨ Describes intText (.obj (manifest generation blockBytes p)) data) :
    Triple (Published intText root work data) (· = fs) (finish intText root work generation blockBytes raised p)
      fun _ _ => True := by
  refine Triple.bind (Q := fun _ s => raised = none ∧ s = fs) (Triple.read fun s _ _ start passed => ?_) fun _ =>
    Triple.of_and fun none => ?_
  · cases raised with
    | none => exact ⟨rfl, start⟩
    | some e => cases passed
  refine Triple.bind (Q := fun _ s => checkEnd intText blockBytes.toNat p = .ok () ∧ s = fs)
    (Triple.read fun s _ _ start passed => ?_) fun _ => Triple.of_and fun checked => ?_
  · cases checked : checkEnd intText blockBytes.toNat p with
    | ok u => exact ⟨rfl, start⟩
    | error e =>
      rw [checked] at passed
      cases passed
  rcases ready none checked with blocked | describes
  · exact triple_bind_of_false (triple_publish_blocked published blocked _)
  · exact ((triple_publish_same describes).weaken (fun _ _ _ => trivial) fun _ _ _ h => h).bind fun _ =>
      Triple.pure fun _ _ _ => trivial

theorem exists_bytes_of_blocks {n : ℕ} {pending : Bytes} (none : (blocks n pending chunks).2 = none) :
    ∃ l : List Bytes, chunks = l.map .bytes := by
  induction chunks generalizing pending with
  | nil => exact ⟨[], rfl⟩
  | cons chunk chunks ih =>
    cases chunk with
    | bytes b =>
      obtain ⟨l, rfl⟩ := ih none
      exact ⟨b :: l, rfl⟩
    | other => cases none
    | raises => cases none

theorem length_blocks {n : ℕ} (pos : 0 < n) (none : (blocks n [] chunks).2 = none) :
    (blocks n [] chunks).1.length = (blocks n [] chunks).1.flatten.length / n +
      if (blocks n [] chunks).1.flatten.length % n = 0 then 0 else 1 := by
  obtain ⟨l, rfl⟩ := exists_bytes_of_blocks none
  rw [blocks_bytes pos (by rw [List.length_nil]; exact pos), List.nil_append, Blocks.flatten_chop pos, Blocks.length_chop pos]

theorem triple_resume_same (segment : fs.content (segmentPath work) = some data) (unpaired : generation.Unpaired)
    (pos : 0 < blockBytes.toNat)
    (accepted : resumeCheckpoint intText work generation blockBytes fs = .ok c)
    (harmless : compareBlocks c.blocks (blocks blockBytes.toNat [] chunks).1 = .ok () →
      (blocks blockBytes.toNat [] chunks).1.length ≤ c.blocks.length ∧
        ((blocks blockBytes.toNat [] chunks).2 = none → (blocks blockBytes.toNat [] chunks).1.length = c.blocks.length →
          fs.IsDir (temporaryOf (manifestPath work)) ∨
            hexdigest (blocks blockBytes.toNat [] chunks).1.flatten = hexdigest data)) :
    Triple (Published intText root work data) (· = fs)
      (buildFrom intText root work chunks generation blockBytes failAfterBlocks c) fun _ _ => True := by
  intro s published start
  subst start
  obtain ⟨writable, fits⟩ := accepted_of_resumeCheckpoint segment accepted
  cases compared : compareBlocks c.blocks (blocks blockBytes.toNat [] chunks).1 with
  | error e =>
    have loop := @foldlM_take s work (blocks blockBytes.toNat [] chunks).1 failAfterBlocks c
    rw [compared] at loop
    rw [buildFrom_eq (by rw [segment]; rfl), bind_of_refused loop]
    exact ⟨fun t mem => absurd mem List.not_mem_nil, published, nofun⟩
  | ok u =>
    obtain ⟨short, ready⟩ := harmless compared
    rw [buildFrom_finish (by rw [segment]; rfl) compared short]
    refine triple_finish_same published (fun none checked => ?_) s published rfl
    obtain ⟨⟨⟩, count, checked⟩ := bind_ok.1 checked
    obtain ⟨sum, summed, checked⟩ := bind_ok.1 checked
    replace count := of_decide_eq_true (check_eq_ok_iff.1 count)
    replace checked := of_decide_eq_true (check_eq_ok_iff.1 checked)
    rw [show sum = data.length from Except.ok.inj (summed.symm.trans (sumLengths_of_fits fits))] at checked
    have inputBytes : ((⟨c, 0, [], 0, 0⟩ : Progress).skip (blocks blockBytes.toNat [] chunks).1).inputBytes =
        (blocks blockBytes.toNat [] chunks).1.flatten.length := Nat.zero_add _
    have source : ((⟨c, 0, [], 0, 0⟩ : Progress).skip (blocks blockBytes.toNat [] chunks).1).source =
        (blocks blockBytes.toNat [] chunks).1.flatten := List.nil_append _
    rw [inputBytes, ← length_blocks pos none] at count
    refine (ready none (short.antisymm count)).imp_right fun digest => ?_
    refine ⟨generation, blockBytes, _, rfl, unpaired, writable, ?_, ?_, fits⟩
    · exact Int.ofNat_inj.1 checked
    · rw [source, digest]

theorem triple_start_blocked (published : Published intText root work data fs)
    (blocked : fs.IsDir (temporaryOf (checkpointPath work)) ∨ fs.IsDir (checkpointPath work)) :
    Triple (Published intText root work data) (· = fs) (startCheckpoint work generation blockBytes) fun _ _ => False := by
  unfold startCheckpoint
  refine triple_bind_of_false (triple_blocked (fun s edits => ?_) blocked _)
  exact published.edits edits (notMem_temporary (by decide)) (notMem_temporary (by decide))

theorem triple_start_nothing (unpaired : generation.Unpaired) (nothing : (blocks blockBytes.toNat [] chunks).1 = []) :
    Triple (Published intText root work []) (fun _ => True) (startCheckpoint work generation blockBytes >>= fun c =>
      buildFrom intText root work chunks generation blockBytes failAfterBlocks c) fun _ _ => True := by
  refine Triple.bind (Q := fun c _ => c = newCheckpoint generation blockBytes ∧ True) ?_ fun c => Triple.of_and fun new => ?_
  · refine Triple.bind (Q := fun _ _ => True) ?_ fun _ => Triple.bind (Q := fun _ _ => True) ?_ fun _ =>
      Triple.pure fun _ _ _ => ⟨rfl, trivial⟩
    · refine triple_replace (fun fs fs' published _ edits => published.edits edits (notMem_temporary (by decide))
        (notMem_temporary (by decide))) fun fs fs' published _ edits _ => ⟨?_, trivial⟩
      exact published.edits edits (notMem_pair (by decide) (by decide)) (notMem_pair (by decide) (by decide))
    · refine triple_writeFile (fun fs fs' n published _ edits written => ?_) fun _ _ _ _ _ _ => trivial
      refine ⟨(edits.isDir_iff root).2 published.top, (edits.isDir_iff work).2 published.dir, ?_, ?_⟩
      · rw [written, List.take_nil]
      · have other : manifestPath work ∉ [segmentPath work] := notMem_singleton (by decide)
        rw [edits.content_eq other]
        exact published.manifest
  · subst new
    intro s published _
    rw [buildFrom_eq (by rw [published.segment]; rfl), nothing]
    show _ ∧ _
    have describes : Describes intText
        (.obj (manifest generation blockBytes ⟨newCheckpoint generation blockBytes, 0, [], 0, 0⟩)) [] :=
      ⟨generation, blockBytes, _, rfl, unpaired, ⟨nofun, nofun⟩, rfl, rfl, rfl⟩
    exact triple_finish_same published (fun _ _ => .inr describes) s published rfl

theorem triple_build_harmless (closed : fs.Closed) (resume : Bool)
    (harmless : Harmless intText store name data chunks generation' blockBytes resume fs) :
    Triple (Published intText store.root (child store.root name) data) (· = fs)
      (store.build intText chunks generation' blockBytes resume failAfterBlocks) fun _ _ => True := by
  intro s published start
  subst start
  by_cases here : ∃ name', checkArguments generation' blockBytes = .ok name' ∧ child store.root name' = child store.root name
  · obtain ⟨name', accepted, same⟩ := here
    obtain ⟨named, one, -⟩ := checkArguments_eq_ok_iff.1 accepted
    have pos : 0 < blockBytes.toNat := by omega
    have kept := harmless name' accepted same
    cases resume with
    | false =>
      rw [build_start_eq published closed accepted same]
      rcases kept with blocked | ⟨rfl, nothing⟩
      · have refused : Triple (Published intText store.root (child store.root name) data) (· = s)
            (startCheckpoint (child store.root name) generation' blockBytes >>= fun c => buildFrom intText store.root
              (child store.root name) chunks generation' blockBytes failAfterBlocks c) fun _ _ => True :=
          triple_bind_of_false (triple_start_blocked published blocked)
        exact refused s published rfl
      · exact triple_start_nothing named.unpaired nothing s published trivial
    | true =>
      rw [build_resume_eq published closed accepted same]
      have resumed : Triple (Published intText store.root (child store.root name) data) (· = s)
          (Prog.read (resumeCheckpoint intText (child store.root name) generation' blockBytes) >>= fun c => buildFrom intText
            store.root (child store.root name) chunks generation' blockBytes failAfterBlocks c) fun _ _ => True := by
        refine Triple.bind (Q := fun c s' => resumeCheckpoint intText (child store.root name) generation' blockBytes s = .ok c ∧
          s' = s) (Triple.read fun s' c _ start loaded => ⟨?_, start⟩) fun c => Triple.of_and fun loaded => ?_
        · rwa [start] at loaded
        · exact triple_resume_same published.segment named.unpaired pos loaded (kept c loaded)
      exact resumed s published rfl
  · refine triple_build_keep (fun name' accepted => keeps_published fun same => here ⟨name', accepted, same⟩) resume s
      published trivial

/-! ## Which builds are not -/

theorem ne_nil_of_mem_blocks {n : ℕ} (pos : 0 < n) {pending : Bytes} (mem : b ∈ (blocks n pending chunks).1) : b ≠ [] := by
  induction chunks generalizing pending with
  | nil =>
    rw [blocks] at mem
    exact Blocks.ne_nil_of_mem_tail mem
  | cons chunk chunks ih =>
    cases chunk with
    | bytes chunk =>
      rcases List.mem_append.1 mem with mem | mem
      · have length := Blocks.length_of_mem_whole pos mem
        rintro rfl
        rw [List.length_nil] at length
        omega
      · exact ih mem
    | other => cases mem
    | raises => cases mem

theorem not_readsBack (published : Published intText store.root (child store.root name) data fs)
    (named : Named generation name) {l : List (List PyStr)} (edits : Edits l fs t)
    (manifest : manifestPath (child store.root name) ∉ l)
    (other : t.content (segmentPath (child store.root name)) ≠ some data) : ¬ ReadsBack intText store generation data t := by
  rintro ⟨read, -⟩
  obtain ⟨m, written, describes⟩ := published.manifest
  obtain ⟨generation', blockBytes, p, rfl, unpaired, writable, -⟩ := describes.exists_manifest
  exact other (content_of_readAll named ((edits.isDir_iff _).2 published.top) ((edits.isDir_iff _).2 published.dir) writable
    unpaired ((edits.content_eq manifest).trans written) read).1

theorem exists_stop_append (published : Published intText store.root (child store.root name) data fs)
    (named : Named generation name) {l : List (List PyStr)} (edits : Edits l fs fs')
    (manifest : manifestPath (child store.root name) ∉ l) {p : Progress} {rest : List Bytes}
    (behind : p.checkpoint.blocks.length ≤ p.index) (nonempty : b ≠ [])
    (segment : fs'.content (segmentPath (child store.root name)) = some data) :
    ∃ t ∈ ((b :: rest).foldlM (buildBlock (child store.root name) failAfterBlocks) p fs').passed,
      ¬ ReadsBack intText store generation data t := by
  obtain ⟨t, ⟨-, rfl⟩, edits', written⟩ := returns_append (ε := Raised) segment b
  refine ⟨_, ?_, not_readsBack published named (edits.trans edits') ?_ ?_⟩
  · rw [List.foldlM_cons]
    refine Prog.passed_of_bind_left ?_
    unfold buildBlock
    rw [List.getElem?_eq_none behind]
    refine Prog.passed_of_bind_left ?_
    exact last_mem_passed_append
  · rw [List.mem_append, not_or]
    exact ⟨manifest, notMem_singleton (by decide)⟩
  · rw [written]
    intro same
    exact nonempty (List.append_right_eq_self.1 (Option.some.inj same))

theorem mem_passed_buildFrom (there : (fs.content (segmentPath work)).isSome)
    (compared : compareBlocks c.blocks (blocks blockBytes.toNat [] chunks).1 = .ok ())
    (mem : t ∈ (((blocks blockBytes.toNat [] chunks).1.drop c.blocks.length).foldlM (buildBlock work failAfterBlocks)
      ((⟨c, 0, [], 0, 0⟩ : Progress).skip ((blocks blockBytes.toNat [] chunks).1.take c.blocks.length)) fs).passed) :
    t ∈ (buildFrom intText root work chunks generation blockBytes failAfterBlocks c fs).passed := by
  have loop := @foldlM_take fs work (blocks blockBytes.toNat [] chunks).1 failAfterBlocks c
  rw [compared] at loop
  rw [buildFrom_eq there, bind_of_silent loop]
  exact Prog.passed_of_bind_left mem

theorem exists_stop_buildFrom (published : Published intText store.root (child store.root name) data fs)
    (named : Named generation name) (pos : 0 < blockBytes.toNat) {l : List (List PyStr)} (edits : Edits l fs fs')
    (manifest : manifestPath (child store.root name) ∉ l)
    (segment : fs'.content (segmentPath (child store.root name)) = some data)
    (compared : compareBlocks c.blocks (blocks blockBytes.toNat [] chunks).1 = .ok ())
    (more : c.blocks.length < (blocks blockBytes.toNat [] chunks).1.length) :
    ∃ t ∈ (buildFrom intText store.root (child store.root name) chunks generation' blockBytes failAfterBlocks c fs').passed,
      ¬ ReadsBack intText store generation data t := by
  obtain ⟨b, rest, first⟩ : ∃ b rest, (blocks blockBytes.toNat [] chunks).1.drop c.blocks.length = b :: rest :=
    List.exists_cons_of_ne_nil fun none => absurd (List.drop_eq_nil_iff.1 none) (Nat.not_le.2 more)
  have nonempty : b ≠ [] := ne_nil_of_mem_blocks pos (List.mem_of_mem_drop (by rw [first]; exact List.mem_cons_self))
  have behind : c.blocks.length ≤ 0 + ((blocks blockBytes.toNat [] chunks).1.take c.blocks.length).length := by
    rw [List.length_take]
    omega
  obtain ⟨t, mem, other⟩ := exists_stop_append
    (p := (⟨c, 0, [], 0, 0⟩ : Progress).skip ((blocks blockBytes.toNat [] chunks).1.take c.blocks.length)) published named
    edits manifest behind nonempty segment
  refine ⟨t, mem_passed_buildFrom (by rw [segment]; rfl) compared ?_, other⟩
  rwa [first]

theorem exists_stop_start (published : Published intText store.root (child store.root name) data fs)
    (named : Named generation name) (pos : 0 < blockBytes.toNat)
    (free : ¬ (fs.IsDir (temporaryOf (checkpointPath (child store.root name))) ∨
      fs.IsDir (checkpointPath (child store.root name))))
    (some : ¬ (data = [] ∧ (blocks blockBytes.toNat [] chunks).1 = [])) :
    ∃ t ∈ ((startCheckpoint (child store.root name) generation' blockBytes >>= fun c =>
      buildFrom intText store.root (child store.root name) chunks generation' blockBytes failAfterBlocks c) fs).passed,
      ¬ ReadsBack intText store generation data t := by
  rw [not_or] at free
  obtain ⟨fs₁, ⟨replaced, rfl⟩, edits₁, -⟩ := returns_atomicJson_of_free ⟨published.top, published.dir⟩ List.mem_cons_self
    free.1 free.2 (newCheckpoint generation' blockBytes).toJson
  have published₁ := published.edits edits₁ (notMem_pair (by decide) (by decide)) (notMem_pair (by decide) (by decide))
  have free' := not_isDir_of_content published₁.segment
  have there : IsDir (atomicJson (checkpointPath (child store.root name))
      (newCheckpoint generation' blockBytes).toJson fs).last (segmentPath (child store.root name)).dropLast := by
    rw [segmentPath, List.dropLast_concat]
    exact published₁.dir
  obtain ⟨fs₂, ⟨emptied, rfl⟩, edits₂, written⟩ := returns_writeFile free' there []
  have edits := edits₁.trans edits₂
  have manifest : manifestPath (child store.root name) ∉
      [temporaryOf (checkpointPath (child store.root name)), checkpointPath (child store.root name)] ++
        [segmentPath (child store.root name)] := by
    rw [List.mem_append, not_or]
    exact ⟨notMem_pair (by decide) (by decide), notMem_singleton (by decide)⟩
  by_cases empty : data = []
  · have more := List.length_pos_iff.2 fun none => some ⟨empty, none⟩
    have compared : compareBlocks [] (blocks blockBytes.toNat [] chunks).1 = .ok () := by
      cases (blocks blockBytes.toNat [] chunks).1 with
      | nil => rfl
      | cons b bs => rfl
    obtain ⟨t, mem, other⟩ := exists_stop_buildFrom (c := newCheckpoint generation' blockBytes)
      published named pos edits manifest
      (written.trans (congrArg _ empty.symm)) compared more
    have started : Returns (startCheckpoint (child store.root name) generation' blockBytes) fs
        (newCheckpoint generation' blockBytes) _ := Returns.bind ⟨replaced, rfl⟩ (Returns.bind ⟨emptied, rfl⟩ (Returns.pure _ _))
    rw [← started.2] at mem
    exact ⟨t, Prog.passed_of_bind_right started.1 mem, other⟩
  · refine ⟨_, Prog.passed_of_bind_left (Prog.passed_of_bind_right replaced (Prog.passed_of_bind_left ?_)),
      not_readsBack published named edits manifest ?_⟩
    · exact last_mem_passed_write emptied
    · rw [written]
      exact fun same => empty (Option.some.inj same).symm

theorem intOf_of_pyEq {n : ℕ} {x : Json} (equal : (Json.int n).pyEq x = true) : intOf intText x = .ok n := by
  replace equal : Json.eqNumber (.int n) x = true := equal
  unfold Json.eqNumber at equal
  cases x with
  | bool b =>
    cases b with
    | false =>
      have zero := of_decide_eq_true equal
      simp at zero
      rw [zero]
      rfl
    | true =>
      have one := of_decide_eq_true equal
      simp at one
      rw [one]
      rfl
  | int m =>
    have same := of_decide_eq_true equal
    simp at same
    rw [intOf, same]
  | float d =>
    have value : (n : ℤ) * 10 ^ d.scale = (if d.neg then -(d.digits : ℤ) else d.digits) * 10 ^ 0 :=
      of_decide_eq_true equal
    have cast : (n : ℤ) * 10 ^ d.scale = ((n * 10 ^ d.scale : ℕ) : ℤ) := by
      push_cast
      rfl
    have pow : 0 < 10 ^ d.scale := Nat.pow_pos (by decide)
    rw [pow_zero, mul_one, cast] at value
    show Except.ok (if d.neg then -((d.digits / 10 ^ d.scale : ℕ) : ℤ) else ((d.digits / 10 ^ d.scale : ℕ) : ℤ)) = _
    split at value
    · rename_i neg
      have digits : d.digits = 0 := by omega
      have product : n * 10 ^ d.scale = 0 := by omega
      have none : n = 0 := (Nat.mul_eq_zero.1 product).resolve_right pow.ne'
      rw [if_pos neg, digits, none, Nat.zero_div]
      rfl
    · rename_i pos
      have digits : d.digits = n * 10 ^ d.scale := (Int.ofNat_inj.1 value).symm
      rw [if_neg pos, digits, Nat.mul_div_cancel _ pow]
  | _ => cases equal

theorem length_of_compareBlocks (fits : Fits intText vs data) (compared : compareBlocks vs bs = .ok ())
    (count : bs.length = vs.length) : bs.flatten.length = data.length := by
  induction vs generalizing bs data with
  | nil =>
    rw [List.eq_nil_of_length_eq_zero count, show data = [] from fits]
    rfl
  | cons v vs ih =>
    cases bs with
    | nil => cases count
    | cons b bs =>
      obtain ⟨n, ⟨-, inside⟩, ⟨fields, x, rfl, place, int, -⟩, fits⟩ := fits
      obtain ⟨⟨⟩, first, compared⟩ := bind_ok.1 compared
      obtain ⟨length, found, first⟩ := bind_ok.1 first
      obtain rfl : x = length := by
        rw [subscript, place] at found
        exact Except.ok.inj found
      have size : n = b.length := by
        split at first
        · rename_i equal
          exact Int.ofNat_inj.1 (Except.ok.inj (int.symm.trans (intOf_of_pyEq equal)))
        · cases first
      have rest := ih fits compared (Nat.succ.inj count)
      rw [List.length_drop] at rest
      rw [List.flatten_cons, List.length_append, rest]
      omega

theorem exists_stop_publish (published : Published intText store.root (child store.root name) data fs)
    (named : Named generation name) (accepted : checkArguments generation' blockBytes = .ok name')
    (loaded : resumeCheckpoint intText (child store.root name) generation' blockBytes fs = .ok c)
    (compared : compareBlocks c.blocks (blocks blockBytes.toNat [] chunks).1 = .ok ())
    (done : (blocks blockBytes.toNat [] chunks).2 = none)
    (count : (blocks blockBytes.toNat [] chunks).1.length = c.blocks.length)
    (free : ¬ fs.IsDir (temporaryOf (manifestPath (child store.root name))))
    (other : hexdigest (blocks blockBytes.toNat [] chunks).1.flatten ≠ hexdigest data) :
    ∃ t ∈ (buildFrom intText store.root (child store.root name) chunks generation' blockBytes failAfterBlocks c fs).passed,
      ¬ ReadsBack intText store generation data t := by
  obtain ⟨named', one, -⟩ := checkArguments_eq_ok_iff.1 accepted
  have pos : 0 < blockBytes.toNat := by omega
  obtain ⟨writable, fits⟩ := accepted_of_resumeCheckpoint published.segment loaded
  rw [buildFrom_finish (by rw [published.segment]; rfl) compared count.le, done]
  have inputBytes : ((⟨c, 0, [], 0, 0⟩ : Progress).skip (blocks blockBytes.toNat [] chunks).1).inputBytes =
      (blocks blockBytes.toNat [] chunks).1.flatten.length := Nat.zero_add _
  have source : ((⟨c, 0, [], 0, 0⟩ : Progress).skip (blocks blockBytes.toNat [] chunks).1).source =
      (blocks blockBytes.toNat [] chunks).1.flatten := List.nil_append _
  have checked : checkEnd intText blockBytes.toNat
      ((⟨c, 0, [], 0, 0⟩ : Progress).skip (blocks blockBytes.toNat [] chunks).1) = .ok () := by
    refine bind_ok.2 ⟨(), check_eq_ok_iff.2 (decide_eq_true ?_), ?_⟩
    · rw [inputBytes, ← length_blocks pos done, count]
      exact Nat.le_refl _
    · refine bind_ok.2 ⟨_, sumLengths_of_fits fits, check_eq_ok_iff.2 (decide_eq_true ?_)⟩
      rw [inputBytes, length_of_compareBlocks fits compared count]
  obtain ⟨fs', ⟨replaced, rfl⟩, edits, written⟩ := returns_atomicJson_of_free (p := manifestPath (child store.root name))
    ⟨published.top, published.dir⟩ (by simp) free (not_isDir_of_content published.manifest.choose_spec.1)
    (.obj (manifest generation' blockBytes
      ((⟨c, 0, [], 0, 0⟩ : Progress).skip (blocks blockBytes.toNat [] chunks).1)))
  have passed := last_mem_passed_replace replaced
  have checked' : (Prog.read (fun _ => (checkEnd intText blockBytes.toNat
      ((⟨c, 0, [], 0, 0⟩ : Progress).skip (blocks blockBytes.toNat [] chunks).1)).map fun _ => PUnit.unit) fs :
        Run FileSystem Raised PUnit).result = .ok ⟨⟩ := by
    rw [checked]
    rfl
  refine ⟨_, Prog.passed_of_bind_right (a := ⟨⟩) rfl (Prog.passed_of_bind_right checked'
    (Prog.passed_of_bind_left (Prog.passed_of_bind_left passed))), ?_⟩
  rintro ⟨read, -⟩
  have digest := (content_of_readAll named ((edits.isDir_iff _).2 published.top) ((edits.isDir_iff _).2 published.dir)
    writable named'.unpaired written read).2
  rw [source] at digest
  exact other digest

/-! ## The theorem -/

/-- The published bytes stay readable behind every step of a later build exactly when the build is harmless. -/
theorem rebuild_iff (intText : PyStr → Option ℤ) (store : StreamingBlockStore) (generation name : PyStr) (data : Bytes)
    (fs : FileSystem) (named : Named generation name)
    (published : Published intText store.root (child store.root name) data fs) (closed : fs.Closed) (chunks : List Chunk)
    (generation' : PyStr) (blockBytes : ℤ) (resume : Bool) (failAfterBlocks : Option ℤ) :
    (∀ t, Stops (store.build intText chunks generation' blockBytes resume failAfterBlocks) fs t →
        ReadsBack intText store generation data t) ↔
      Harmless intText store name data chunks generation' blockBytes resume fs := by
  constructor
  · intro all name' accepted same
    have pass {m : Prog FileSystem Raised Json}
        (run : store.build intText chunks generation' blockBytes resume failAfterBlocks fs = m fs)
        (other : ∃ t ∈ (m fs).passed, ¬ ReadsBack intText store generation data t) : False := by
      obtain ⟨t, mem, not⟩ := other
      exact not (all t (.inr (.inl (run ▸ mem))))
    obtain ⟨-, one, -⟩ := checkArguments_eq_ok_iff.1 accepted
    have pos : 0 < blockBytes.toNat := by omega
    cases resume with
    | false =>
      by_contra harmful
      rw [not_or] at harmful
      exact pass (build_start_eq published closed accepted same)
        (exists_stop_start published named pos harmful.1 harmful.2)
    | true =>
      intro c loaded compared
      have run {t : FileSystem}
          (mem : t ∈ (buildFrom intText store.root (child store.root name) chunks generation' blockBytes failAfterBlocks c
            fs).passed) (other : ¬ ReadsBack intText store generation data t) : False :=
        pass (build_resume_eq published closed accepted same) ⟨t, Prog.passed_of_bind_right
          (m := Prog.read (resumeCheckpoint intText (child store.root name) generation' blockBytes)) loaded mem, other⟩
      refine ⟨?_, fun done count => ?_⟩
      · by_contra more
        obtain ⟨t, mem, other⟩ := exists_stop_buildFrom
          (l := []) published named pos ⟨fun _ => Iff.rfl, fun _ _ => rfl⟩ List.not_mem_nil published.segment compared
          (Nat.not_le.1 more)
        exact run mem other
      · by_contra harmful
        rw [not_or] at harmful
        obtain ⟨t, mem, other⟩ := exists_stop_publish published named accepted loaded
          compared done count harmful.1 harmful.2
        exact run mem other
  · intro harmless t stop
    exact ((triple_build_harmless closed resume harmless).stops published rfl stop).readsBack named

/-! ## Samples -/

/-- The store in `/s` with one byte published. -/
def sampleBuilt : FileSystem := (sampleStore.build (fun _ => none) [.bytes [0x61]] "g" 1 false none sampleFiles).last

theorem built_sample : Named "g" "g" ∧ Ready sampleStore.root "g" sampleBuilt ∧
    Published (fun _ => none) sampleStore.root (child sampleStore.root "g") [0x61] sampleBuilt ∧
    sampleBuilt.content (checkpointPath (child sampleStore.root "g")) = none := by
  have accepted : checkArguments "g" 1 = .ok "g" := by decide
  obtain ⟨named, one, max⟩ := checkArguments_eq_ok_iff.1 accepted
  obtain ⟨r, ran⟩ := succeeds_build named one max ready_sample [[0x61]]
  have kept := @triple_build_attempt (fun _ => none) _ _ _ _ _ none named one false sampleFiles
    (⟨ready_sample, .inl (by decide)⟩ : Attempted sampleStore.root "g" "g" 1 (Blocks.chop _ ([[0x61]] : List Bytes).flatten) _)
    trivial
  have finished := kept.2.2 r ran
  have published := @Finished.published (fun _ => none) _ _ _ _ _ _ finished named.unpaired fun b mem =>
    Blocks.ne_nil_of_mem_chop (by decide) mem
  rw [Blocks.flatten_chop (by decide)] at published
  exact ⟨named, kept.2.1.toReady, published, finished.checkpoint⟩

/-- A build that resumes where nothing is to be resumed is refused, and the byte stays readable. -/
theorem rebuild_iff_refused :
    Published (fun _ => none) sampleStore.root (child sampleStore.root "g") [0x61] sampleBuilt ∧
      ∀ t, Stops (sampleStore.build (fun _ => none) [.bytes [0x61]] "g" 1 true none) sampleBuilt t →
        ReadsBack (fun _ => none) sampleStore "g" [0x61] t := by
  obtain ⟨named, ready, published, none⟩ := built_sample
  refine ⟨published, fun t stop => ?_⟩
  refine (rebuild_iff (fun _ => Option.none) sampleStore "g" "g" [0x61] sampleBuilt named published ready.closed
    [.bytes [0x61]] "g" 1 true Option.none).2 ?_ t stop
  intro name' _ _ c loaded
  obtain ⟨checkpoint, loaded, -⟩ := bind_ok.1 loaded
  obtain ⟨v, read, -⟩ := bind_ok.1 loaded
  obtain ⟨b, there⟩ := content_of_readJson read
  rw [none] at there
  cases there

/-- The same build again, started anew, empties the segment first. -/
theorem not_readsBack_emptied :
    ¬ ∀ t, Stops (sampleStore.build (fun _ => none) [.bytes [0x61]] "g" 1 false none) sampleBuilt t →
      ReadsBack (fun _ => none) sampleStore "g" [0x61] t := by
  intro all
  obtain ⟨named, ready, published, -⟩ := built_sample
  have accepted : checkArguments "g" 1 = .ok "g" := by decide
  have free : ¬ (sampleBuilt.IsDir (temporaryOf (checkpointPath (child sampleStore.root "g"))) ∨
      sampleBuilt.IsDir (checkpointPath (child sampleStore.root "g"))) :=
    not_or.2 ⟨(ready.files _ (by simp [storeFiles])).1, (ready.files _ (by simp [storeFiles])).1⟩
  obtain ⟨t, mem, other⟩ := @exists_stop_start _ _ _ _ _ _ 1 [.bytes [0x61]] _ _
    published named (by decide) free (by decide)
  rw [← build_start_eq published ready.closed accepted rfl] at mem
  exact other (all t (.inr (.inl mem)))

end Streaming

end SimplicioFast
