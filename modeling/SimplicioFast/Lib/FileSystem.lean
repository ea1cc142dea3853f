import Mathlib.Data.List.Infix
import SimplicioFast.Lib.Crash
import SimplicioFast.Lib.Dict
import SimplicioFast.Lib.Text

/-!
# Files and directories

A file system maps paths, which are lists of names from the root, to directories and files.  A text is resolved from a
directory as the operating system does it: name by name, through directories that exist, where `..` goes up.  There are
no links.

The operations are programs that may stop behind every step, and a file that is written passes through all the prefixes
of its bytes.  Each operation has a rule that says what a proof about a program must show of it.
-/

namespace SimplicioFast

/-- What a path leads to. -/
inductive Node
  | dir
  | file (content : Bytes)
deriving DecidableEq

/-- The files and directories, by their names from the root. -/
abbrev FileSystem := Dict (List PyStr) Node

/-- The exceptions of the operations. -/
inductive OsError
  | fileNotFound
  | notADirectory
  | isADirectory
  | fileExists
  | embeddedNull
deriving DecidableEq

namespace FileSystem

variable (fs : FileSystem)

def IsDir (p : List PyStr) : Prop := fs.get? p = some .dir

instance (p : List PyStr) : Decidable (fs.IsDir p) := inferInstanceAs (Decidable (_ = _))

def content (p : List PyStr) : Option Bytes :=
  match fs.get? p with
  | some (.file b) => some b
  | _ => none

/-! ## Paths -/

/-- Whether the name stays where it is. -/
def isDot (name : PyStr) : Bool := name = [] || name = "."

def walk : List PyStr → List PyStr → Except OsError (List PyStr)
  | p, [] => .ok p
  | p, name :: names =>
    if ¬ fs.IsDir p then .error (if (fs.get? p).isSome then .notADirectory else .fileNotFound)
    else if isDot name then walk p names
    else if name = ("..") then walk p.dropLast names
    else walk (p ++ [name]) names

/-- The path that a text denotes in a directory. -/
def locate (p : List PyStr) (text : PyStr) : Except OsError (List PyStr) :=
  if .scalar '\x00' ∈ text then .error .embeddedNull
  else fs.walk (if text.head? = some (.scalar '/') then [] else p) (text.splitOn (.scalar '/'))

/-- `Path.exists` of a text in a directory. -/
def existsAt (p : List PyStr) (text : PyStr) : Bool :=
  match fs.locate p text with
  | .ok q => (fs.get? q).isSome
  | .error _ => false

variable {fs : FileSystem} {p q : List PyStr} {b : Bytes} {text name : PyStr} {names : List PyStr} {n : Node}

theorem content_eq_some_iff : fs.content p = some b ↔ fs.get? p = some (.file b) := by
  unfold content
  split
  · rename_i c same
    rw [same, Option.some.injEq, Option.some.injEq, Node.file.injEq]
  · rename_i other
    exact iff_of_false (by simp) fun same => other b same

theorem content_congr {fs' : FileSystem} (same : fs.get? p = fs'.get? p) : fs.content p = fs'.content p := by
  unfold content
  rw [same]

theorem content_of_isDir (dir : fs.IsDir p) : fs.content p = none := by
  unfold content
  rw [show fs.get? p = some .dir from dir]

theorem content_of_none (absent : fs.get? p = none) : fs.content p = none := by
  unfold content
  rw [absent]

@[simp] theorem content_set_file (p : List PyStr) (b : Bytes) (q : List PyStr) :
    content (fs.set p (.file b)) q = if q = p then some b else fs.content q := by
  unfold content
  rw [Dict.get?_set]
  by_cases same : q = p
  · rw [if_pos same, if_pos same]
  · rw [if_neg same, if_neg same]

theorem content_erase (p q : List PyStr) : content (fs.erase p) q = if q = p then none else fs.content q := by
  unfold content
  rw [Dict.get?_erase]
  by_cases same : q = p
  · rw [if_pos same, if_pos same]
  · rw [if_neg same, if_neg same]

theorem content_set_dir (absent : fs.content p = none) (q : List PyStr) : content (fs.set p .dir) q = fs.content q := by
  by_cases same : q = p
  · rw [same, absent]
    exact content_of_isDir (Dict.get?_set_self fs p .dir)
  · exact content_congr (Dict.get?_set_of_ne fs .dir same)

/-! ## Texts that stay in their directory -/

/-- The names of a text before its last one that lead somewhere. -/
def folders (text : PyStr) : List PyStr := (text.splitOn (.scalar '/')).dropLast.filter fun name => !isDot name

def leaf (text : PyStr) : PyStr := (text.splitOn (.scalar '/')).getLastD []

theorem walk_dots (dir : fs.IsDir p) (dots : ∀ name ∈ names, isDot name = true) (rest : List PyStr) :
    fs.walk p (names ++ rest) = fs.walk p rest := by
  induction names with
  | nil => rfl
  | cons name names ih =>
    obtain ⟨dot, dots⟩ := List.forall_mem_cons.1 dots
    rw [List.cons_append, walk, if_neg (not_not.2 dir), if_pos dot, ih dots]

theorem walk_leaf (dir : fs.IsDir p) (dot : isDot name = false) (up : name ≠ ("..")) :
    fs.walk p [name] = .ok (p ++ [name]) := by
  rw [walk, if_neg (not_not.2 dir), if_neg (by simp [dot]), if_neg up, walk]

theorem walk_blocked (dir : fs.IsDir p) (dots : ∀ name ∈ names, isDot name = true) (dot : isDot name = false)
    (up : name ≠ ("..")) (absent : ¬ fs.IsDir (p ++ [name])) (next : PyStr) (rest : List PyStr) :
    ∃ e, fs.walk p (names ++ name :: next :: rest) = .error e := by
  rw [walk_dots dir dots, walk, if_neg (not_not.2 dir), if_neg (by simp [dot]), if_neg up, walk, if_pos absent]
  exact ⟨_, rfl⟩

theorem exists_split_of_filter {P : PyStr → Bool} {l rest : List PyStr} (h : l.filter P = name :: rest) :
    ∃ before after, l = before ++ name :: after ∧ (∀ m ∈ before, P m = false) ∧ P name = true := by
  induction l with
  | nil => cases h
  | cons m l ih =>
    rw [List.filter_cons] at h
    split at h
    · rename_i holds
      cases h
      exact ⟨[], l, rfl, fun m mem => absurd mem List.not_mem_nil, holds⟩
    · rename_i fails
      obtain ⟨before, after, rfl, none, holds⟩ := ih h
      refine ⟨m :: before, after, rfl, fun k mem => ?_, holds⟩
      rcases List.mem_cons.1 mem with rfl | mem
      · simpa using fails
      · exact none k mem

/-! ## Operations -/

section Operations

open Crash

variable {ε : Type} (os : OsError → ε)

/-- What `locate` gives. -/
def located (p : List PyStr) (text : PyStr) : Prog FileSystem ε (List PyStr) :=
  Prog.read fun fs => (fs.locate p text).mapError os

/-- `open(p, "wb").write(b)`: the file is emptied first, and it may stop behind every byte. -/
def write (p : List PyStr) (b : Bytes) : Prog FileSystem ε PUnit := fun fs =>
  if fs.IsDir p then Prog.raise (os .isADirectory) fs
  else if ¬ fs.IsDir p.dropLast then Prog.raise (os .fileNotFound) fs
  else ⟨(List.range (b.length + 1)).map fun n => fs.set p (.file (b.take n)), fs.set p (.file b), .ok ⟨⟩⟩

/-- `open(p, "rb").read()`. -/
def readBytes (p : List PyStr) : Prog FileSystem ε Bytes := Prog.read fun fs =>
  match fs.get? p with
  | none => .error (os .fileNotFound)
  | some .dir => .error (os .isADirectory)
  | some (.file b) => .ok b

/-- `os.replace` of a file. -/
def rename (p q : List PyStr) : Prog FileSystem ε PUnit := fun fs =>
  match fs.get? p with
  | none => Prog.raise (os .fileNotFound) fs
  | some .dir => Prog.raise (os .isADirectory) fs
  | some (.file b) =>
    if fs.IsDir q then Prog.raise (os .isADirectory) fs
    else if ¬ fs.IsDir q.dropLast then Prog.raise (os .fileNotFound) fs
    else Prog.change (fun fs => Dict.set (fs.erase p) q (.file b)) fs

def mkdir (p : List PyStr) : Prog FileSystem ε PUnit := fun fs =>
  if (fs.get? p).isSome then Prog.raise (os .fileExists) fs
  else if ¬ fs.IsDir p.dropLast then Prog.raise (os .fileNotFound) fs
  else Prog.change (fun fs => fs.set p .dir) fs

/-- `Path.mkdir(exist_ok=True)`. -/
def ensureDir (p : List PyStr) : Prog FileSystem ε PUnit := fun fs =>
  if fs.IsDir p then ⟨[], fs, .ok ⟨⟩⟩ else mkdir os p fs

/-- `Path.mkdir(parents=True, exist_ok=True)`. -/
def makedirs (p : List PyStr) : Prog FileSystem ε PUnit :=
  p.dropLast.inits.tail.foldlM (fun _ q => ensureDir os q) ⟨⟩ >>= fun _ => ensureDir os p

/-- The destination of `shutil.move`. -/
def moveTarget (fs : FileSystem) (p q : List PyStr) : List PyStr := if fs.IsDir q then q ++ [p.getLastD []] else q

/-- `shutil.move` of a directory that is empty. -/
def moveEmptyDir (p q : List PyStr) : Prog FileSystem ε PUnit := fun fs =>
  if (fs.get? (fs.moveTarget p q)).isSome then Prog.raise (os .fileExists) fs
  else Prog.change (fun fs => Dict.set (fs.erase p) (fs.moveTarget p q) .dir) fs

/-- `shutil.rmtree(p, ignore_errors=True)`. -/
def rmtree (p : List PyStr) : Prog FileSystem ε PUnit :=
  Prog.read (fun fs => .ok (fs.keys.filter (p <+: ·)).reverse) >>= fun paths =>
    paths.foldlM (fun _ q => Prog.change fun fs => fs.erase q) ⟨⟩

variable {os} {C P : FileSystem → Prop} {Q : PUnit → FileSystem → Prop}

theorem triple_located {Q : List PyStr → FileSystem → Prop}
    (h : ∀ fs q, C fs → P fs → fs.locate p text = .ok q → Q q fs) : Triple C P (located os p text) Q :=
  Triple.read fun fs q safe start found => by
    cases result : fs.locate p text with
    | error e =>
      rw [result] at found
      cases found
    | ok q' =>
      rw [result] at found
      cases found
      exact h fs _ safe start result

theorem triple_write (h : ∀ fs, C fs → P fs → ¬ fs.IsDir p →
    (∀ n, C (fs.set p (.file (b.take n)))) ∧ Q ⟨⟩ (fs.set p (.file b))) : Triple C P (write os p b) Q := by
  intro fs safe start
  unfold write
  split
  · exact Triple.raise _ fs safe start
  · rename_i free
    split
    · exact Triple.raise _ fs safe start
    · obtain ⟨kept, done⟩ := h fs safe start free
      refine ⟨fun t mem => ?_, ?_, fun _ _ => done⟩
      · obtain ⟨n, -, rfl⟩ := List.mem_map.1 mem
        exact kept n
      · have whole := kept b.length
        rwa [List.take_length] at whole

theorem triple_readBytes {Q : Bytes → FileSystem → Prop}
    (h : ∀ fs b, C fs → P fs → fs.content p = some b → Q b fs) : Triple C P (readBytes os p) Q :=
  Triple.read fun fs b safe start found => by
    split at found
    · cases found
    · cases found
    · rename_i c there
      cases found
      exact h fs _ safe start (content_eq_some_iff.2 there)

theorem triple_rename (h : ∀ fs b, C fs → P fs → fs.content p = some b → ¬ fs.IsDir q →
    C (Dict.set (fs.erase p) q (.file b)) ∧ Q ⟨⟩ (Dict.set (fs.erase p) q (.file b))) :
    Triple C P (rename os p q) Q := by
  intro fs safe start
  unfold rename
  split
  · exact Triple.raise _ fs safe start
  · exact Triple.raise _ fs safe start
  · rename_i b there
    split
    · exact Triple.raise _ fs safe start
    · rename_i free
      split
      · exact Triple.raise _ fs safe start
      · obtain ⟨kept, done⟩ := h fs b safe start (content_eq_some_iff.2 there) free
        exact Triple.change (P := (· = fs)) (fun _ _ same => same ▸ ⟨kept, done⟩) fs safe rfl

theorem triple_mkdir (h : ∀ fs, C fs → P fs → fs.get? p = none → fs.IsDir p.dropLast →
    C (fs.set p .dir) ∧ Q ⟨⟩ (fs.set p .dir)) :
    Triple C P (mkdir os p) Q := by
  intro fs safe start
  unfold mkdir
  split
  · exact Triple.raise _ fs safe start
  · rename_i free
    split
    · exact Triple.raise _ fs safe start
    · rename_i parent
      exact Triple.change (P := (· = fs)) (fun _ _ same =>
        same ▸ h fs safe start (by simpa using free) (not_not.1 parent)) fs safe rfl

/-- What every new directory keeps, and every directory that is there has, holds behind `makedirs`. -/
theorem triple_makedirs {I : FileSystem → Prop}
    (new : ∀ fs q, C fs → I fs → q <+: p → fs.get? q = none → fs.IsDir q.dropLast →
      C (fs.set q .dir) ∧ I (fs.set q .dir)) :
    Triple C I (makedirs os p) fun _ fs => I fs ∧ fs.IsDir p := by
  have each (q : List PyStr) (above : q <+: p) : Triple C I (ensureDir os q) fun _ fs => I fs ∧ fs.IsDir q := by
    intro fs safe start
    unfold ensureDir
    split
    · rename_i dir
      exact ⟨fun t mem => absurd mem List.not_mem_nil, safe, fun _ _ => ⟨start, dir⟩⟩
    · have made : Triple C I (mkdir os q) fun _ fs => I fs ∧ fs.IsDir q := triple_mkdir fun fs safe start absent parent =>
        (new fs q safe start above absent parent).imp_right fun kept => ⟨kept, Dict.get?_set_self fs q .dir⟩
      exact made fs safe start
  have all (l : List (List PyStr)) (above : ∀ q ∈ l, q <+: p) :
      Triple C I (l.foldlM (fun _ q => ensureDir os q) ⟨⟩) fun _ => I := by
    induction l with
    | nil => exact Triple.pure fun _ _ start => start
    | cons q l ih =>
      obtain ⟨first, above⟩ := List.forall_mem_cons.1 above
      rw [List.foldlM_cons]
      exact (each q first).bind fun _ => (ih above).weaken (fun _ _ h => h.1) fun _ _ _ h => h
  refine (all _ fun q mem => ?_).bind fun _ => each p (List.prefix_refl p)
  exact ((List.mem_inits _ _).1 (List.mem_of_mem_tail mem)).trans (List.dropLast_prefix p)

theorem triple_moveEmptyDir (h : ∀ fs, C fs → P fs → fs.get? (fs.moveTarget p q) = none →
    C (Dict.set (fs.erase p) (fs.moveTarget p q) .dir) ∧ Q ⟨⟩ (Dict.set (fs.erase p) (fs.moveTarget p q) .dir)) :
    Triple C P (moveEmptyDir os p q) Q := by
  intro fs safe start
  unfold moveEmptyDir
  split
  · exact Triple.raise _ fs safe start
  · rename_i free
    exact Triple.change (P := (· = fs)) (fun _ _ same =>
      same ▸ h fs safe start (by simpa using free)) fs safe rfl

theorem triple_rmtree {I : FileSystem → Prop}
    (erase : ∀ fs q, C fs → I fs → p <+: q → C (fs.erase q) ∧ I (fs.erase q)) :
    Triple C I (rmtree (ε := ε) p) fun _ => I := by
  have all (l : List (List PyStr)) (below : ∀ q ∈ l, p <+: q) :
      Triple C I (l.foldlM (fun _ q => Prog.change (ε := ε) fun fs => fs.erase q) ⟨⟩) fun _ => I := by
    induction l with
    | nil => exact Triple.pure fun _ _ start => start
    | cons q l ih =>
      obtain ⟨first, below⟩ := List.forall_mem_cons.1 below
      rw [List.foldlM_cons]
      exact (Triple.change fun fs safe start => erase fs q safe start first).bind fun _ => ih below
  refine Triple.bind (Q := fun paths fs => I fs ∧ ∀ q ∈ paths, p <+: q) ?_ ?_
  · refine Triple.read fun fs paths _ start same => ?_
    cases same
    refine ⟨start, fun q mem => ?_⟩
    exact of_decide_eq_true (List.mem_filter.1 (List.mem_reverse.1 mem)).2
  · intro paths fs safe start
    exact all paths start.2 fs safe start.1

end Operations

end FileSystem

end SimplicioFast
