import SimplicioFast.Lib.FileTree

/-!
# Appending to files, and replacing them

A file that is appended to passes through all the prefixes of what is appended.  A file that is replaced is written under
another name first, so at every point it has its old bytes or its new ones.
-/

namespace SimplicioFast

namespace FileSystem

open Crash

section

variable {ε : Type} (os : OsError → ε)

/-- `open(p, "ab")`: a file that is not there is made. -/
def openAppend (p : List PyStr) : Prog FileSystem ε PUnit := fun fs =>
  match fs.get? p with
  | some .dir => Prog.raise (os .isADirectory) fs
  | some (.file _) => ⟨[], fs, .ok ⟨⟩⟩
  | none =>
    if ¬ fs.IsDir p.dropLast then Prog.raise (os .fileNotFound) fs
    else Prog.change (fun fs => fs.set p (.file [])) fs

/-- A write to a file that is open for appending; it may stop behind every byte. -/
def append (p : List PyStr) (b : Bytes) : Prog FileSystem ε PUnit := fun fs =>
  ⟨(List.range (b.length + 1)).map fun n => fs.set p (.file ((fs.content p).getD [] ++ b.take n)),
    fs.set p (.file ((fs.content p).getD [] ++ b)), .ok ⟨⟩⟩

/-- `Path.unlink(missing_ok=True)`. -/
def unlink (p : List PyStr) : Prog FileSystem ε PUnit := fun fs =>
  match fs.get? p with
  | some .dir => Prog.raise (os .isADirectory) fs
  | some (.file _) => Prog.change (fun fs => fs.erase p) fs
  | none => ⟨[], fs, .ok ⟨⟩⟩

/-- The bytes are written to a temporary file, which takes the place of the file. -/
def replace (temporary p : List PyStr) (b : Bytes) : Prog FileSystem ε PUnit :=
  write os temporary b >>= fun _ => rename os temporary p

end

variable {ε : Type} {os : OsError → ε} {C P : FileSystem → Prop} {Q : PUnit → FileSystem → Prop}
  {fs : FileSystem} {p q temporary : List PyStr} {b c : Bytes}

/-! ## What changes -/

/-- The directories are the same, and so is everything but these files. -/
structure Edits (l : List (List PyStr)) (fs fs' : FileSystem) : Prop where
  isDir_iff : ∀ q, fs'.IsDir q ↔ fs.IsDir q
  same : ∀ q ∉ l, fs'.get? q = fs.get? q

namespace Edits

variable {l l' : List (List PyStr)} {fs' fs'' : FileSystem}

theorem content_eq (edits : Edits l fs fs') (other : q ∉ l) : fs'.content q = fs.content q :=
  content_congr (edits.same q other)

theorem trans (edits : Edits l fs fs') (edits' : Edits l' fs' fs'') : Edits (l ++ l') fs fs'' where
  isDir_iff q := (edits'.isDir_iff q).trans (edits.isDir_iff q)
  same q other := by
    rw [List.mem_append, not_or] at other
    rw [edits'.same q other.2, edits.same q other.1]

theorem mono (edits : Edits l fs fs') (sub : ∀ q ∈ l, q ∈ l') : Edits l' fs fs' :=
  ⟨edits.isDir_iff, fun q other => edits.same q fun mem => other (sub q mem)⟩

theorem closed (edits : Edits l fs fs') (closed : fs.Closed) (parents : ∀ q ∈ l, fs.IsDir q.dropLast) : fs'.Closed := by
  intro q there
  rw [edits.isDir_iff]
  by_cases mem : q ∈ l
  · exact parents q mem
  · rw [edits.same q mem] at there
    exact closed q there

theorem set_file (free : ¬ fs.IsDir p) (b : Bytes) : Edits [p] fs (fs.set p (.file b)) where
  isDir_iff q := by
    rw [IsDir, IsDir, Dict.get?_set]
    split
    · rename_i same
      rw [same]
      exact iff_of_false (fun h => by cases h) free
    · exact Iff.rfl
  same q other := Dict.get?_set_of_ne _ _ fun same => other (List.mem_singleton.2 same)

theorem erase (free : ¬ fs.IsDir p) : Edits [p] fs (fs.erase p) where
  isDir_iff q := by
    rw [IsDir, IsDir, Dict.get?_erase]
    split
    · rename_i same
      rw [same]
      exact iff_of_false (fun h => by cases h) free
    · exact Iff.rfl
  same q other := by
    rw [Dict.get?_erase, if_neg fun same => other (List.mem_singleton.2 same)]

end Edits

/-! ## What holds at every point -/

theorem triple_writeFile (h : ∀ fs fs' n, C fs → P fs → Edits [p] fs fs' → fs'.content p = some (b.take n) → C fs')
    (done : ∀ fs fs', C fs → P fs → Edits [p] fs fs' → fs'.content p = some b → Q ⟨⟩ fs') :
    Triple C P (write os p b) Q := by
  refine triple_write fun fs safe start free => ⟨fun n => ?_, ?_⟩
  · exact h fs _ n safe start (Edits.set_file free _) (by rw [content_set_file, if_pos rfl])
  · exact done fs _ safe start (Edits.set_file free _) (by rw [content_set_file, if_pos rfl])

theorem triple_openAppend (there : ∀ fs, C fs → P fs → (fs.content p).isSome → Q ⟨⟩ fs)
    (new : ∀ fs fs', C fs → P fs → fs.content p = none → Edits [p] fs fs' → fs'.content p = some [] → C fs' ∧ Q ⟨⟩ fs') :
    Triple C P (openAppend os p) Q := by
  intro fs safe start
  unfold openAppend
  split
  · exact Triple.raise _ fs safe start
  · rename_i b found
    exact ⟨fun t mem => absurd mem List.not_mem_nil, safe, fun _ _ => there fs safe start (by
      rw [content_eq_some_iff.2 found]; rfl)⟩
  · rename_i absent
    have free : ¬ fs.IsDir p := by
      rw [IsDir, absent]
      exact fun h => by cases h
    split
    · exact Triple.raise _ fs safe start
    · exact Triple.change (P := (· = fs)) (fun _ _ same => same ▸ new fs _ safe start (content_of_none absent)
        (Edits.set_file free []) (by rw [content_set_file, if_pos rfl])) fs safe rfl

theorem triple_append (file : ∀ fs, C fs → P fs → fs.content p = some c)
    (h : ∀ fs fs' n, C fs → P fs → Edits [p] fs fs' → fs'.content p = some (c ++ b.take n) → C fs')
    (done : ∀ fs fs', C fs → P fs → Edits [p] fs fs' → fs'.content p = some (c ++ b) → Q ⟨⟩ fs') :
    Triple C P (append (ε := ε) p b) Q := by
  intro fs safe start
  have found := file fs safe start
  have free : ¬ fs.IsDir p := by
    intro dir
    rw [content_of_isDir dir] at found
    cases found
  have edits (c : Bytes) := Edits.set_file free c
  have written (c : Bytes) : content (fs.set p (.file c)) p = some c := by rw [content_set_file, if_pos rfl]
  unfold append
  rw [found]
  refine ⟨fun t mem => ?_, ?_, fun _ _ => done fs _ safe start (edits _) (written _)⟩
  · obtain ⟨n, -, rfl⟩ := List.mem_map.1 mem
    exact h fs _ n safe start (edits _) (written _)
  · have whole := h fs _ b.length safe start (edits _) (written _)
    rwa [List.take_length] at whole

theorem triple_unlink (there : ∀ fs fs', C fs → P fs → Edits [p] fs fs' → fs'.content p = none → C fs' ∧ Q ⟨⟩ fs')
    (absent : ∀ fs, C fs → P fs → fs.get? p = none → Q ⟨⟩ fs) : Triple C P (unlink os p) Q := by
  intro fs safe start
  unfold unlink
  split
  · exact Triple.raise _ fs safe start
  · rename_i b found
    have free : ¬ fs.IsDir p := by
      rw [IsDir, found]
      exact fun h => by cases h
    exact Triple.change (P := (· = fs)) (fun _ _ same => same ▸ there fs _ safe start (Edits.erase free)
      (by rw [content_erase, if_pos rfl])) fs safe rfl
  · rename_i none
    exact ⟨fun t mem => absurd mem List.not_mem_nil, safe, fun _ _ => absent fs safe start none⟩

theorem triple_replace (scratch : ∀ fs fs', C fs → P fs → Edits [temporary] fs fs' → C fs')
    (placed : ∀ fs fs', C fs → P fs → Edits [temporary, p] fs fs' → fs'.content p = some b → C fs' ∧ Q ⟨⟩ fs') :
    Triple C P (replace os temporary p b) Q := by
  refine Triple.bind (Q := fun _ fs' => ∃ fs, C fs ∧ P fs ∧ Edits [temporary] fs fs' ∧ fs'.content temporary = some b)
    ?_ fun _ => ?_
  · exact triple_writeFile (fun fs fs' n safe start edits _ => scratch fs fs' safe start edits)
      fun fs fs' safe start edits written => ⟨fs, safe, start, edits, written⟩
  · refine triple_rename fun fs' c _ start found free => ?_
    obtain ⟨fs, safe, start, edits, written⟩ := start
    obtain rfl : b = c := Option.some.inj (written.symm.trans found)
    have file : ¬ fs'.IsDir temporary := by
      intro dir
      rw [content_of_isDir dir] at found
      cases found
    have erased := Edits.erase file
    have moved := Edits.set_file (mt (erased.isDir_iff p).1 free) b
    refine placed fs _ safe start ((edits.trans (erased.trans moved)).mono ?_) (by rw [content_set_file, if_pos rfl])
    simp

/-! ## What succeeds -/

theorem returns_writeFile (free : ¬ fs.IsDir p) (parent : fs.IsDir p.dropLast) (b : Bytes) :
    ∃ fs', Returns (write os p b) fs ⟨⟩ fs' ∧ Edits [p] fs fs' ∧ fs'.content p = some b :=
  ⟨_, returns_write os free parent b, Edits.set_file free b, by rw [content_set_file, if_pos rfl]⟩

theorem returns_openAppend (there : fs.content p = some b) : Returns (openAppend os p) fs ⟨⟩ fs := by
  unfold Returns openAppend
  rw [content_eq_some_iff.1 there]
  exact ⟨rfl, rfl⟩

theorem not_isDir_of_content (there : fs.content p = some b) : ¬ fs.IsDir p := by
  intro dir
  rw [content_of_isDir dir] at there
  cases there

theorem returns_append (there : fs.content p = some b) (c : Bytes) :
    ∃ fs', Returns (append (ε := ε) p c) fs ⟨⟩ fs' ∧ Edits [p] fs fs' ∧ fs'.content p = some (b ++ c) := by
  refine ⟨_, ?_, Edits.set_file (not_isDir_of_content there) (b ++ c), by rw [content_set_file, if_pos rfl]⟩
  unfold Returns append
  rw [there]
  exact ⟨rfl, rfl⟩

theorem returns_unlink (there : fs.content p = some b) :
    ∃ fs', Returns (unlink os p) fs ⟨⟩ fs' ∧ Edits [p] fs fs' ∧ fs'.content p = none := by
  refine ⟨_, ?_, Edits.erase (not_isDir_of_content there), by rw [content_erase, if_pos rfl]⟩
  unfold Returns unlink
  rw [content_eq_some_iff.1 there]
  exact ⟨rfl, rfl⟩

theorem returns_replace (free : ¬ fs.IsDir temporary) (target : ¬ fs.IsDir p) (parent : fs.IsDir temporary.dropLast)
    (parent' : fs.IsDir p.dropLast) (b : Bytes) :
    ∃ fs', Returns (replace os temporary p b) fs ⟨⟩ fs' ∧ Edits [temporary, p] fs fs' ∧ fs'.content p = some b := by
  have written := Edits.set_file free b
  have file : ¬ IsDir (fs.set temporary (.file b)) temporary := mt (written.isDir_iff temporary).1 free
  have erased := Edits.erase file
  have free' : ¬ IsDir (fs.set temporary (.file b)) p := mt (written.isDir_iff p).1 target
  have moved := Edits.set_file
    (mt (erased.isDir_iff p).1 free') b
  refine ⟨_, (returns_write os free parent b).bind (returns_rename os (Dict.get?_set_self _ _ _) free'
    ((written.isDir_iff _).2 parent')), (written.trans (erased.trans moved)).mono ?_, by rw [content_set_file, if_pos rfl]⟩
  simp

/-! ## What a program passes through -/

theorem last_mem_passed_write (ran : (write os p b fs).result = .ok ⟨⟩) :
    (write os p b fs).last ∈ (write os p b fs).passed := by
  unfold write at ran ⊢
  split at ran
  · cases ran
  · rename_i free
    split at ran
    · cases ran
    · rename_i parent
      rw [if_neg free, if_neg parent]
      exact List.mem_map.2 ⟨b.length, List.mem_range.2 (Nat.lt_succ_self _), by rw [List.take_length]⟩

theorem last_mem_passed_append : (append (ε := ε) p b fs).last ∈ (append (ε := ε) p b fs).passed :=
  List.mem_map.2 ⟨b.length, List.mem_range.2 (Nat.lt_succ_self _), by rw [List.take_length]; rfl⟩

theorem last_mem_passed_rename (ran : (rename os p q fs).result = .ok ⟨⟩) :
    (rename os p q fs).last ∈ (rename os p q fs).passed := by
  unfold rename at ran ⊢
  split at ran
  · cases ran
  · cases ran
  · split at ran
    · cases ran
    · rename_i free
      split at ran
      · cases ran
      · rename_i parent
        rw [if_neg free, if_neg parent]
        exact List.mem_singleton.2 rfl

theorem last_mem_passed_replace (ran : (replace os temporary p b fs).result = .ok ⟨⟩) :
    (replace os temporary p b fs).last ∈ (replace os temporary p b fs).passed := by
  obtain ⟨u, written, renamed⟩ := Prog.result_bind_eq_ok_iff.1 ran
  unfold replace
  rw [Prog.bind_of_ok written]
  exact List.mem_append_right _ (last_mem_passed_rename renamed)

end FileSystem

end SimplicioFast
