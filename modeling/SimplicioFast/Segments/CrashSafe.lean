import SimplicioFast.Segments.Publish

/-!
# Publishing is safe against crashes

At every point where `publish` can stop, the manifest is the one that was there or names segments that are complete, and
no file outside the directory of the store has changed (`publish_safe`).  The names of sections come from the snapshot,
and a name with a `..` or a leading slash leads out of the staging directory and out of the directory of the store, so
the names that are reached must not do so (`Tame`).
-/

namespace SimplicioFast

namespace Segments

open Crash FileSystem

/-! ## Names of sections -/

/-- Whether a file with the name in a staging directory leaves it: the name is absolute, or goes up first. -/
def escapes (name : PyStr) : Bool := name.head? = some (.scalar '/') || (folders name).head? = some ("..")

/-- No name escapes, up to the first one that cannot be written because it has a NUL or names a folder. -/
def Tame : List PyStr → Prop
  | [] => True
  | name :: names => .scalar '\x00' ∈ name ∨ (escapes name = false ∧ (folders name = [] → Tame names))

theorem tame_of_forall {names : List PyStr} (plain : ∀ name ∈ names, escapes name = false) : Tame names := by
  induction names with
  | nil => trivial
  | cons name names ih =>
    obtain ⟨first, rest⟩ := List.forall_mem_cons.1 plain
    exact .inr ⟨first, fun _ => ih rest⟩

/-- What comes behind the name of a section in the name of its file. -/
def extension (data : Bytes) : PyStr := (("-" : PyStr) ++ hexdigest data) ++ (".seg" : PyStr)

theorem splitOn_append {c : PyChar} {name rest : PyStr} (absent : c ∉ rest) :
    (name ++ rest).splitOn c = (name.splitOn c).dropLast ++ [(name.splitOn c).getLastD [] ++ rest] := by
  induction name with
  | nil =>
    have whole : rest.splitOn c = [rest] := List.splitOn_eq_singleton absent
    simp [whole]
  | cons d name ih =>
    obtain ⟨front, last, split⟩ := (List.eq_nil_or_concat (name.splitOn c)).resolve_left (List.splitOn_ne_nil c name)
    rw [List.concat_eq_append] at split
    rw [List.cons_append, List.splitOn_cons_eq_if_modifyHead, List.splitOn_cons_eq_if_modifyHead, ih, split]
    cases front with
    | nil => split_ifs <;> simp
    | cons part front =>
      rw [List.dropLast_concat, List.getLastD_concat]
      split_ifs
      · show [] :: part :: front ++ [last ++ rest] =
          ([] :: part :: front ++ [last]).dropLast ++ [([] :: part :: front ++ [last]).getLastD [] ++ rest]
        rw [List.dropLast_concat, List.getLastD_concat]
      · show (d :: part) :: front ++ [last ++ rest] =
          ((d :: part) :: front ++ [last]).dropLast ++ [((d :: part) :: front ++ [last]).getLastD [] ++ rest]
        rw [List.dropLast_concat, List.getLastD_concat]

theorem notMem_hexdigest {c : PyChar} (other : ∀ n < 16, c ≠ .scalar (Bytes.hexDigit n)) (data : Bytes) :
    c ∉ hexdigest data := by
  intro mem
  obtain ⟨d, inside, rfl⟩ := List.mem_map.1 mem
  exact Sha256.forall_mem_hexdigest (P := fun e => PyChar.scalar d ≠ .scalar e) other data d inside rfl

theorem slash_notMem_extension (data : Bytes) : .scalar '/' ∉ extension data := by
  have digits := notMem_hexdigest (c := .scalar '/') (by decide) data
  simp [extension, PyStr.ofChars, digits]

theorem nul_notMem_extension (data : Bytes) : .scalar '\x00' ∉ extension data := by
  have digits := notMem_hexdigest (c := .scalar '\x00') (by decide) data
  simp [extension, PyStr.ofChars, digits]

variable {name : PyStr} {data : Bytes} {fs : FileSystem} {p : List PyStr}

theorem fileName_eq (name : PyStr) (data : Bytes) : fileName name data = name ++ extension data := rfl

/-- The last name of the file of a section. -/
def leafName (name : PyStr) (data : Bytes) : PyStr := leaf name ++ extension data

theorem suffix_leafName (name : PyStr) (data : Bytes) : (".seg" : PyStr) <:+ leafName name data :=
  (List.suffix_append _ _).trans (List.suffix_append _ _)

theorem splitOn_fileName (name : PyStr) (data : Bytes) :
    (fileName name data).splitOn (.scalar '/') = (name.splitOn (.scalar '/')).dropLast ++ [leafName name data] :=
  splitOn_append (slash_notMem_extension data)

theorem head?_fileName (relative : name.head? ≠ some (.scalar '/')) :
    (fileName name data).head? ≠ some (.scalar '/') := by
  rw [fileName_eq]
  cases name with
  | nil =>
    intro absurd
    have slash : PyChar.scalar '-' = .scalar '/' := Option.some.inj absurd
    simp at slash
  | cons c name => exact relative

theorem isDot_of_suffix {x : PyStr} (ends : (".seg" : PyStr) <:+ x) : isDot x = false ∧ x ≠ ("..") := by
  obtain ⟨front, rfl⟩ := ends
  constructor
  · cases front with
    | nil => decide
    | cons c front => cases front <;> simp [isDot, PyStr.ofChars]
  · intro same
    have lengths := congrArg List.length same
    simp [PyStr.ofChars] at lengths

theorem locate_fileName (plain : escapes name = false) (printable : .scalar '\x00' ∉ name) (flat : folders name = [])
    (dir : fs.IsDir p) : fs.locate p (fileName name data) = .ok (p ++ [leafName name data]) := by
  obtain ⟨relative, -⟩ := Bool.or_eq_false_iff.1 plain
  have nul : .scalar '\x00' ∉ fileName name data := by
    rw [fileName_eq, List.mem_append, not_or]
    exact ⟨printable, nul_notMem_extension data⟩
  have dots : ∀ part ∈ (name.splitOn (.scalar '/')).dropLast, isDot part = true := by
    intro part mem
    have none := List.filter_eq_nil_iff.1 flat part mem
    simpa using none
  obtain ⟨dot, up⟩ := isDot_of_suffix (suffix_leafName name data)
  rw [locate, if_neg nul, if_neg (head?_fileName (of_decide_eq_false relative)), splitOn_fileName, walk_dots dir dots,
    walk_leaf dir dot up]

theorem locate_fileName_error (data : Bytes) (blocked : .scalar '\x00' ∈ name ∨ escapes name = false ∧ folders name ≠ [])
    (dir : fs.IsDir p) (empty : ∀ q, ¬ fs.IsDir (p ++ [q])) : ∃ e, fs.locate p (fileName name data) = .error e := by
  rw [locate]
  split
  · exact ⟨_, rfl⟩
  · rename_i nul
    obtain ⟨plain, foldered⟩ : escapes name = false ∧ folders name ≠ [] := by
      refine blocked.resolve_left fun mem => nul ?_
      rw [fileName_eq]
      exact List.mem_append_left _ mem
    obtain ⟨relative, up⟩ := Bool.or_eq_false_iff.1 plain
    obtain ⟨first, rest, starts⟩ := List.exists_cons_of_ne_nil foldered
    obtain ⟨before, after, split, dots, kept⟩ := exists_split_of_filter starts
    rw [if_neg (head?_fileName (of_decide_eq_false relative)), splitOn_fileName, split, List.append_assoc, List.cons_append]
    have dot : isDot first = false := by simpa using kept
    have dots : ∀ part ∈ before, isDot part = true := fun part mem => by simpa using dots part mem
    have notUp : first ≠ ("..") := by
      intro same
      rw [starts, same] at up
      exact absurd rfl (of_decide_eq_false up)
    cases after with
    | nil => exact walk_blocked dir dots dot notUp (empty first) _ _
    | cons next after => exact walk_blocked dir dots dot notUp (empty first) _ _

/-! ## What holds at every point -/

/-- The file that a segment of a manifest names is there, with the size and the digest that the manifest records. -/
def Complete (store : SegmentStore) (fs : FileSystem) (s : Segment) : Prop :=
  ∃ p c, fs.locate store.directory s.file = .ok p ∧ fs.content p = some c ∧ c.length = s.bytes ∧ hexdigest c = s.sha256

/-- The manifest names complete segments only. -/
def Published (store : SegmentStore) (fs : FileSystem) : Prop :=
  ∃ m : Manifest, fs.content store.manifestPath = some m.encode ∧ ∀ s ∈ m.segments, Complete store fs s

/-- The path is that of something inside the directory of the store. -/
def Inside (store : SegmentStore) (p : List PyStr) : Prop := store.directory <+: p ∧ p ≠ store.directory

/-- What must hold of every state `fs` in which a `publish` from `fs₀` can stop. -/
structure Safe (store : SegmentStore) (fs₀ fs : FileSystem) : Prop where
  manifest : fs.content store.manifestPath = fs₀.content store.manifestPath ∨ Published store fs
  outside : ∀ p, ¬ Inside store p → fs.content p = fs₀.content p

/-- The name of a segment, which `mkdtemp` never invents and no manifest has. -/
def IsSegmentName (x : PyStr) : Prop := (".seg" : PyStr) <:+ x

/-- A segment whose file stays in the directory, and is complete. -/
def Stored (store : SegmentStore) (fs : FileSystem) (s : Segment) : Prop :=
  ∃ x c, IsSegmentName x ∧ (∀ fs' : FileSystem, fs'.IsDir store.directory →
    fs'.locate store.directory s.file = .ok (store.directory ++ [x])) ∧ fs.content (store.directory ++ [x]) = some c ∧
    c.length = s.bytes ∧ hexdigest c = s.sha256

/-- The invariant of a `publish`, which says where the files of the segments are. -/
structure Guarded (store : SegmentStore) (fs₀ fs : FileSystem) : Prop where
  manifest : fs.content store.manifestPath = fs₀.content store.manifestPath ∨ fs.IsDir store.directory ∧
    ∃ m : Manifest, fs.content store.manifestPath = some m.encode ∧ ∀ s ∈ m.segments, Stored store fs s
  outside : ∀ p, ¬ Inside store p → fs.content p = fs₀.content p

variable {store : SegmentStore} {env : Environment} {fs₀ fs fs' : FileSystem} {s : Segment} {segments : List Segment}
  {x : PyStr} {q : List PyStr}

theorem Guarded.safe (h : Guarded store fs₀ fs) : Safe store fs₀ fs := by
  refine ⟨h.manifest.imp_right ?_, h.outside⟩
  rintro ⟨dir, m, manifest, stored⟩
  refine ⟨m, manifest, fun s mem => ?_⟩
  obtain ⟨x, c, -, place, there, size, digest⟩ := stored s mem
  exact ⟨_, c, place fs dir, there, size, digest⟩

/-! ## Names in the directory -/

theorem not_isSegmentName_manifest : ¬ IsSegmentName MANIFEST_NAME := by
  unfold IsSegmentName
  decide

theorem not_isSegmentName_temporary (env : Environment) (name : PyStr) : ¬ IsSegmentName (env.temporary name) := by
  intro ends
  have last : (".tmp" : PyStr) <:+ env.temporary name := List.suffix_append _ _
  have same := (List.suffix_of_suffix_length_le ends last (by decide)).eq_of_length (by decide)
  exact absurd same (by decide)

theorem ne_staging {name : PyStr} (ending : PyStr) (ends : ending <:+ name) (short : ending.length ≤ 8)
    (dotted : .scalar '.' ∈ ending) : name ≠ env.staging := by
  rintro rfl
  have last : env.random <:+ env.staging := List.suffix_append _ _
  have inside := List.suffix_of_suffix_length_le ends last (by rwa [env.sized])
  exact env.undotted (inside.mem dotted)

theorem temporary_ne_staging (name : PyStr) : env.temporary name ≠ env.staging :=
  ne_staging ".tmp" (List.suffix_append _ _) (by decide) (by decide)

theorem manifest_ne_staging : MANIFEST_NAME ≠ env.staging :=
  ne_staging ".json" (by decide) (by decide) (by decide)

theorem backup_ne_staging : MANIFEST_BACKUP_NAME ≠ env.staging :=
  ne_staging ".json" (by decide) (by decide) (by decide)

theorem IsSegmentName.ne_staging (ends : IsSegmentName x) : x ≠ env.staging :=
  Segments.ne_staging _ ends (by decide) (by decide)

theorem temporary_ne_manifest (name : PyStr) : env.temporary name ≠ MANIFEST_NAME := by
  intro same
  have first : (env.temporary name).head? = some (.scalar '.') := rfl
  rw [same] at first
  exact absurd first (by decide)

theorem temporary_inj {name name' : PyStr} (same : env.temporary name = env.temporary name') : name = name' := by
  have same := List.append_cancel_right (List.append_cancel_right (List.append_cancel_right same))
  exact List.append_cancel_left same

/-- A path where nothing stands that the invariant speaks of. -/
structure Foreign (store : SegmentStore) (p : List PyStr) : Prop where
  inside : Inside store p
  manifest : p ≠ store.manifestPath
  segment : ∀ x, IsSegmentName x → p ≠ store.directory ++ [x]

theorem inside_append (tail : PyStr) (rest : List PyStr) : Inside store (store.directory ++ tail :: rest) :=
  ⟨List.prefix_append _ _, by simp⟩

theorem foreign_name (manifest : x ≠ MANIFEST_NAME) (other : ¬ IsSegmentName x) :
    Foreign store (store.directory ++ [x]) := by
  refine ⟨inside_append x [], ?_, ?_⟩
  · simpa [SegmentStore.manifestPath] using manifest
  · intro y ends same
    have same : x = y := by simpa using same
    exact other (same ▸ ends)

theorem foreign_staged (y x : PyStr) : Foreign store (store.directory ++ [y] ++ [x]) := by
  refine ⟨?_, ?_, ?_⟩
  · rw [List.append_assoc]
    exact inside_append y [x]
  · simp [SegmentStore.manifestPath]
  · simp

theorem foreign_temporary (name : PyStr) : Foreign store (store.directory ++ [env.temporary name]) :=
  foreign_name (temporary_ne_manifest name) (not_isSegmentName_temporary env name)

/-! ## Steps -/

theorem Stored.congr (h : Stored store fs s)
    (same : ∀ x, IsSegmentName x → fs.content (store.directory ++ [x]) ≠ none →
      fs'.content (store.directory ++ [x]) = fs.content (store.directory ++ [x])) : Stored store fs' s := by
  obtain ⟨x, c, ends, place, there, right⟩ := h
  refine ⟨x, c, ends, place, ?_, right⟩
  rw [same x ends (by simp [there]), there]

theorem Guarded.of_same (same : ∀ p, fs.content p = fs₀.content p) : Guarded store fs₀ fs :=
  ⟨.inl (same _), fun p _ => same p⟩

/-- A step that changes nothing of what the invariant speaks of. -/
structure Elsewhere (store : SegmentStore) (fs fs' : FileSystem) : Prop where
  dir : fs.IsDir store.directory → fs'.IsDir store.directory
  manifest : fs'.content store.manifestPath = fs.content store.manifestPath
  segment : ∀ x, IsSegmentName x → fs.content (store.directory ++ [x]) ≠ none →
    fs'.content (store.directory ++ [x]) = fs.content (store.directory ++ [x])
  outside : ∀ p, ¬ Inside store p → fs'.content p = fs.content p

theorem Foreign.set_file (foreign : Foreign store q) (b : Bytes) (fs : FileSystem) :
    Elsewhere store fs (fs.set q (.file b)) := by
  refine ⟨fun dir => ?_, ?_, fun x ends _ => ?_, fun p other => ?_⟩
  · rw [IsDir, Dict.get?_set_of_ne _ _ foreign.inside.2.symm]
    exact dir
  · rw [content_set_file, if_neg foreign.manifest.symm]
  · rw [content_set_file, if_neg (foreign.segment x ends).symm]
  · rw [content_set_file, if_neg fun same : p = q => other (same ▸ foreign.inside)]

theorem Foreign.erase (foreign : Foreign store q) (fs : FileSystem) : Elsewhere store fs (fs.erase q) := by
  refine ⟨fun dir => ?_, ?_, fun x ends _ => ?_, fun p other => ?_⟩
  · rw [IsDir, Dict.get?_erase, if_neg foreign.inside.2.symm]
    exact dir
  · rw [content_erase, if_neg foreign.manifest.symm]
  · rw [content_erase, if_neg (foreign.segment x ends).symm]
  · rw [content_erase, if_neg fun same : p = q => other (same ▸ foreign.inside)]

theorem elsewhere_new (ends : IsSegmentName x) (absent : fs.content (store.directory ++ [x]) = none) (b : Bytes) :
    Elsewhere store fs (fs.set (store.directory ++ [x]) (.file b)) := by
  refine ⟨fun dir => ?_, ?_, fun y _ there => ?_, fun p other => ?_⟩
  · rw [IsDir, Dict.get?_set_of_ne _ _ (by simp)]
    exact dir
  · rw [content_set_file, if_neg]
    intro same
    have same : MANIFEST_NAME = x := by simpa [SegmentStore.manifestPath] using same
    exact not_isSegmentName_manifest (same ▸ ends)
  · rw [content_set_file, if_neg]
    intro same
    exact there (same ▸ absent)
  · rw [content_set_file, if_neg fun same : p = _ => other (same ▸ inside_append x [])]

theorem Elsewhere.trans {fs'' : FileSystem} (h : Elsewhere store fs fs') (h' : Elsewhere store fs' fs'') :
    Elsewhere store fs fs'' := by
  refine ⟨h'.dir ∘ h.dir, h'.manifest.trans h.manifest, fun x ends there => ?_,
    fun p other => (h'.outside p other).trans (h.outside p other)⟩
  have same := h.segment x ends there
  exact (h'.segment x ends (same ▸ there)).trans same

theorem Guarded.elsewhere (h : Guarded store fs₀ fs) (step : Elsewhere store fs fs') : Guarded store fs₀ fs' := by
  refine ⟨?_, fun p other => (step.outside p other).trans (h.outside p other)⟩
  rw [step.manifest]
  refine h.manifest.imp_right ?_
  rintro ⟨isDir, m, named, stored⟩
  exact ⟨step.dir isDir, m, named, fun s mem => (stored s mem).congr step.segment⟩

/-- What is known while the sections are copied and the manifest is written. -/
structure Working (store : SegmentStore) (env : Environment) (fs₀ : FileSystem) (segments : List Segment)
    (fs : FileSystem) : Prop where
  dir : fs.IsDir store.directory
  staging : fs.IsDir (store.directory ++ [env.staging])
  empty : ∀ y, ¬ fs.IsDir (store.directory ++ [env.staging] ++ [y])
  manifest : fs.content store.manifestPath = fs₀.content store.manifestPath
  stored : ∀ s ∈ segments, Stored store fs s

theorem Working.elsewhere (h : Working store env fs₀ segments fs) (step : Elsewhere store fs fs')
    (staging : fs'.IsDir (store.directory ++ [env.staging]))
    (empty : ∀ y, ¬ fs'.IsDir (store.directory ++ [env.staging] ++ [y])) : Working store env fs₀ segments fs' :=
  ⟨step.dir h.dir, staging, empty, step.manifest.trans h.manifest, fun s mem => (h.stored s mem).congr step.segment⟩

theorem Working.set_file (h : Working store env fs₀ segments fs) (foreign : Foreign store q)
    (other : q ≠ store.directory ++ [env.staging]) (b : Bytes) :
    Working store env fs₀ segments (fs.set q (.file b)) := by
  refine h.elsewhere (foreign.set_file b fs) ?_ fun y dir => ?_
  · rw [IsDir, Dict.get?_set_of_ne _ _ other.symm]
    exact h.staging
  · rw [IsDir, Dict.get?_set] at dir
    split at dir
    · cases dir
    · exact h.empty y dir

theorem Working.erase (h : Working store env fs₀ segments fs) (foreign : Foreign store q)
    (other : q ≠ store.directory ++ [env.staging]) : Working store env fs₀ segments (fs.erase q) := by
  refine h.elsewhere (foreign.erase fs) ?_ fun y dir => ?_
  · rw [IsDir, Dict.get?_erase, if_neg other.symm]
    exact h.staging
  · rw [IsDir, Dict.get?_erase] at dir
    split at dir
    · cases dir
    · exact h.empty y dir

/-! ## Sections -/

variable {progress : Progress}

/-- What is known behind the write of a temporary file. -/
structure Written (store : SegmentStore) (env : Environment) (fs₀ : FileSystem) (segments : List Segment) (x : PyStr)
    (data : Bytes) (fs : FileSystem) : Prop where
  working : Working store env fs₀ segments fs
  content : fs.content (store.directory ++ [env.staging] ++ [x]) = some data

theorem Working.snoc (h : Working store env fs₀ segments fs) (stored : Stored store fs s) :
    Working store env fs₀ (segments ++ [s]) fs :=
  ⟨h.dir, h.staging, h.empty, h.manifest, fun s' mem => (List.mem_append.1 mem).elim (h.stored s')
    fun mem => List.mem_singleton.1 mem ▸ stored⟩

theorem stored_segmentOf (plain : escapes name = false) (printable : .scalar '\x00' ∉ name) (flat : folders name = [])
    {c : Bytes} (there : fs.content (store.directory ++ [leafName name data]) = some c) (size : c.length = data.length)
    (digest : hexdigest c = hexdigest data) : Stored store fs (segmentOf name data) :=
  ⟨leafName name data, c, suffix_leafName name data, fun _ dir => locate_fileName plain printable flat dir, there, size,
    digest⟩

theorem triple_reuse (plain : escapes name = false) (printable : .scalar '\x00' ∉ name) (flat : folders name = []) :
    Triple (Guarded store fs₀) (Written store env fs₀ segments (leafName name data) data) (store.reuse name data)
      fun _ => Working store env fs₀ (segments ++ [segmentOf name data]) := by
  refine Triple.read fun fs u _ start read => ?_
  rw [locate_fileName plain printable flat start.working.dir] at read
  split at read
  · cases read
  · rename_i c there
    split at read
    · cases read
    · rename_i right
      have size : c.length = data.length := not_not.1 fun other => right (.inl other)
      have digest : hexdigest c = hexdigest data := not_not.1 fun other => right (.inr other)
      exact start.working.snoc (stored_segmentOf plain printable flat there size digest)

theorem triple_place (plain : escapes name = false) (printable : .scalar '\x00' ∉ name) (flat : folders name = []) :
    Triple (Guarded store fs₀)
      (fun fs => Written store env fs₀ segments (leafName name data) data fs ∧
        fs.existsAt store.directory (fileName name data) = false)
      (store.place (store.directory ++ [env.staging] ++ [leafName name data]) name data)
      fun _ => Working store env fs₀ (segments ++ [segmentOf name data]) := by
  have ends := suffix_leafName name data
  refine Triple.bind (Q := fun final fs => final = store.directory ++ [leafName name data] ∧
    Written store env fs₀ segments (leafName name data) data fs ∧ fs.get? final = none) ?_ fun final => ?_
  · refine triple_located fun fs final _ start found => ?_
    obtain ⟨written, absent⟩ := start
    rw [locate_fileName plain printable flat written.working.dir] at found
    rw [existsAt, locate_fileName plain printable flat written.working.dir] at absent
    cases found
    exact ⟨rfl, written, by simpa using absent⟩
  · refine triple_rename fun fs b safe start has _ => ?_
    obtain ⟨rfl, written, absent⟩ := start
    have same : b = data := by
      rw [written.content] at has
      exact (Option.some.inj has).symm
    subst same
    have erased := written.working.erase (foreign_staged env.staging (leafName name b)) (by simp)
    have absent' : content (fs.erase (store.directory ++ [env.staging] ++ [leafName name b]))
        (store.directory ++ [leafName name b]) = none := by
      rw [content_erase, content_of_none absent, ite_self]
    have new := elsewhere_new ends absent' b
    have step := ((foreign_staged env.staging (leafName name b)).erase fs).trans new
    have other : store.directory ++ [env.staging] ≠ store.directory ++ [leafName name b] := by
      intro same
      have same : env.staging = leafName name b := by simpa using same
      exact IsSegmentName.ne_staging ends same.symm
    have working := erased.elsewhere new (by
      rw [IsDir, Dict.get?_set_of_ne _ _ other]
      exact erased.staging) (fun y dir => by
      rw [IsDir, Dict.get?_set] at dir
      split at dir
      · cases dir
      · exact erased.empty y dir)
    refine ⟨safe.elsewhere step, working.snoc (stored_segmentOf plain printable flat ?_ rfl rfl)⟩
    rw [content_set_file, if_pos rfl]

theorem triple_publishSection (plain : escapes name = false) (printable : .scalar '\x00' ∉ name)
    (flat : folders name = []) :
    Triple (Guarded store fs₀) (Working store env fs₀ progress.segments)
      (store.publishSection (store.directory ++ [env.staging]) progress (name, data))
      fun progress' => Working store env fs₀ progress'.segments := by
  refine Triple.bind (Q := fun temporary fs => temporary = store.directory ++ [env.staging] ++ [leafName name data] ∧
    Working store env fs₀ progress.segments fs) ?_ fun temporary => ?_
  · refine triple_located fun fs temporary _ start found => ?_
    rw [locate_fileName plain printable flat start.staging] at found
    cases found
    exact ⟨rfl, start⟩
  refine Triple.bind (Q := fun _ fs => temporary = store.directory ++ [env.staging] ++ [leafName name data] ∧
    Written store env fs₀ progress.segments (leafName name data) data fs) ?_ fun _ => ?_
  · refine triple_write fun fs safe start _ => ?_
    obtain ⟨rfl, start⟩ := start
    have foreign : Foreign store (store.directory ++ [env.staging] ++ [leafName name data]) := foreign_staged _ _
    refine ⟨fun n => safe.elsewhere (foreign.set_file _ fs), rfl, start.set_file foreign (by simp) data, ?_⟩
    rw [content_set_file, if_pos rfl]
  refine Triple.bind (Q := fun there fs => (temporary = store.directory ++ [env.staging] ++ [leafName name data] ∧
    Written store env fs₀ progress.segments (leafName name data) data fs) ∧
    fs.existsAt store.directory (fileName name data) = there) ?_ fun there => ?_
  · refine Triple.read fun fs there _ start read => ?_
    cases read
    exact ⟨start, rfl⟩
  cases there with
  | true =>
    refine Triple.bind ((triple_reuse plain printable flat).weaken (fun _ _ start => start.1.2) fun _ _ _ h => h)
      fun _ => Triple.pure fun _ _ done => done
  | false =>
    refine Triple.bind (Q := fun _ => Working store env fs₀ (progress.segments ++ [segmentOf name data])) ?_
      fun _ => Triple.pure fun _ _ done => done
    intro fs safe start
    obtain ⟨⟨rfl, written⟩, absent⟩ := start
    exact triple_place plain printable flat fs safe ⟨written, absent⟩

theorem triple_publishSection_blocked
    (blocked : .scalar '\x00' ∈ name ∨ escapes name = false ∧ folders name ≠ []) :
    Triple (Guarded store fs₀) (Working store env fs₀ progress.segments)
      (store.publishSection (store.directory ++ [env.staging]) progress (name, data)) fun _ _ => False := by
  refine Triple.bind (Q := fun _ _ => False) ?_ fun temporary fs _ absurd => absurd.elim
  refine triple_located fun fs temporary _ start found => ?_
  obtain ⟨e, fails⟩ := locate_fileName_error data blocked start.staging start.empty
  rw [fails] at found
  cases found

theorem triple_sections (progress : Progress) {sections : List (PyStr × Bytes)} (tame : Tame (sections.map Prod.fst)) :
    Triple (Guarded store fs₀) (Working store env fs₀ progress.segments)
      (sections.foldlM (store.publishSection (store.directory ++ [env.staging])) progress)
      fun progress' => Working store env fs₀ progress'.segments := by
  induction sections generalizing progress with
  | nil => exact Triple.pure fun _ _ start => start
  | cons section_ sections ih =>
    obtain ⟨name, data⟩ := section_
    rw [List.foldlM_cons]
    rcases tame with printable | ⟨plain, rest⟩
    · exact (triple_publishSection_blocked (.inl printable)).bind fun _ _ _ absurd => absurd.elim
    · by_cases flat : folders name = []
      · by_cases printable : .scalar '\x00' ∈ name
        · exact (triple_publishSection_blocked (.inl printable)).bind fun _ _ _ absurd => absurd.elim
        · exact (triple_publishSection plain printable flat).bind fun _ => ih _ (rest flat)
      · exact (triple_publishSection_blocked (.inr ⟨plain, flat⟩)).bind fun _ _ _ absurd => absurd.elim

/-! ## The manifest -/

/-- What is known behind the write of the manifest to a temporary file. -/
structure Prepared (store : SegmentStore) (env : Environment) (fs₀ : FileSystem) (m : Manifest) (fs : FileSystem) :
    Prop where
  working : Working store env fs₀ m.segments fs
  content : fs.content (store.directory ++ [env.temporary MANIFEST_NAME]) = some m.encode

/-- What is known when the manifest is in its place. -/
structure Replaced (store : SegmentStore) (env : Environment) (m : Manifest) (fs : FileSystem) : Prop where
  dir : fs.IsDir store.directory
  manifest : fs.content store.manifestPath = some m.encode
  stored : ∀ s ∈ m.segments, Stored store fs s

variable {m : Manifest}

theorem temporary_path_ne_staging (name : PyStr) :
    store.directory ++ [env.temporary name] ≠ store.directory ++ [env.staging] := by
  simpa using temporary_ne_staging name

theorem triple_keepPrevious :
    Triple (Guarded store fs₀) (Prepared store env fs₀ m) (store.keepPrevious env) fun _ => Prepared store env fs₀ m := by
  have foreign : Foreign store (store.directory ++ [env.temporary MANIFEST_BACKUP_NAME]) := foreign_temporary _
  have foreign' : Foreign store store.previousManifestPath :=
    foreign_name (by decide) (by
      unfold IsSegmentName
      decide)
  have other : store.directory ++ [env.temporary MANIFEST_NAME] ≠
      store.directory ++ [env.temporary MANIFEST_BACKUP_NAME] := by
    intro same
    have same : env.temporary MANIFEST_NAME = env.temporary MANIFEST_BACKUP_NAME := by simpa using same
    exact absurd (temporary_inj same) (by decide)
  have other' : store.directory ++ [env.temporary MANIFEST_NAME] ≠ store.previousManifestPath := by
    intro same
    have same : env.temporary MANIFEST_NAME = MANIFEST_BACKUP_NAME := by
      simpa [SegmentStore.previousManifestPath] using same
    have first : (env.temporary MANIFEST_NAME).head? = some (.scalar '.') := rfl
    rw [same] at first
    exact absurd first (by decide)
  have staging : store.previousManifestPath ≠ store.directory ++ [env.staging] := by
    simpa [SegmentStore.previousManifestPath] using backup_ne_staging
  refine Triple.bind (Q := fun _ => Prepared store env fs₀ m) (Triple.read fun _ _ _ start _ => start) fun there => ?_
  cases there with
  | false => exact Triple.pure fun _ _ start => start
  | true =>
    refine Triple.bind (Q := fun _ => Prepared store env fs₀ m) (triple_readBytes fun _ _ _ start _ => start)
      fun current => ?_
    refine Triple.bind (Q := fun _ => Prepared store env fs₀ m) ?_ fun _ => ?_
    · refine triple_write fun fs safe start _ => ⟨fun n => safe.elsewhere (foreign.set_file _ fs), ?_⟩
      refine ⟨start.working.set_file foreign (temporary_path_ne_staging _) current, ?_⟩
      rw [content_set_file, if_neg other]
      exact start.content
    · refine triple_rename fun fs b safe start _ _ => ?_
      have erased := start.working.erase foreign (temporary_path_ne_staging _)
      refine ⟨(safe.elsewhere (foreign.erase fs)).elsewhere (foreign'.set_file b _), erased.set_file foreign' staging b, ?_⟩
      rw [content_set_file, if_neg other', content_erase, if_neg other]
      exact start.content

theorem triple_replaceManifest :
    Triple (Guarded store fs₀) (Working store env fs₀ m.segments) (store.replaceManifest env m)
      fun _ => Replaced store env m := by
  have foreign : Foreign store (store.directory ++ [env.temporary MANIFEST_NAME]) := foreign_temporary _
  refine Triple.bind (Q := fun _ => Working store env fs₀ m.segments) ?_ fun _ => ?_
  · refine (triple_makedirs fun fs q safe start above absent _ => ?_).weaken (fun _ _ h => h) fun _ _ _ h => h.1
    have none := content_of_none absent
    have short (tail : PyStr) (rest : List PyStr) : store.directory ++ tail :: rest ≠ q := by
      rintro rfl
      have := above.length_le
      simp at this
    have step : Elsewhere store fs (fs.set q .dir) := by
      refine ⟨fun dir => ?_, content_set_dir none _, fun x _ _ => content_set_dir none _,
        fun p _ => content_set_dir none p⟩
      rw [IsDir, Dict.get?_set]
      split
      · rfl
      · exact dir
    refine ⟨safe.elsewhere step, start.elsewhere step ?_ fun y dir => ?_⟩
    · rw [IsDir, Dict.get?_set_of_ne _ _ (short _ _)]
      exact start.staging
    · rw [IsDir, Dict.get?_set_of_ne _ _ (by simpa using short env.staging [y])] at dir
      exact start.empty y dir
  refine Triple.bind (Q := fun _ => Prepared store env fs₀ m) ?_ fun _ => ?_
  · refine triple_write fun fs safe start _ => ⟨fun n => safe.elsewhere (foreign.set_file _ fs), ?_⟩
    refine ⟨start.set_file foreign (temporary_path_ne_staging _) _, ?_⟩
    rw [content_set_file, if_pos rfl]
  refine Triple.bind triple_keepPrevious fun _ => ?_
  refine triple_rename fun fs b safe start has _ => ?_
  have same : b = m.encode := by
    rw [start.content] at has
    exact (Option.some.inj has).symm
  subst same
  have erased := start.working.erase foreign (temporary_path_ne_staging _)
  have safe := safe.elsewhere (foreign.erase fs)
  have dir : IsDir (Dict.set (fs.erase (store.directory ++ [env.temporary MANIFEST_NAME])) store.manifestPath
      (.file m.encode)) store.directory := by
    rw [IsDir, Dict.get?_set_of_ne _ _ (by simp [SegmentStore.manifestPath])]
    exact erased.dir
  have stored : ∀ s ∈ m.segments, Stored store (Dict.set (fs.erase (store.directory ++
      [env.temporary MANIFEST_NAME])) store.manifestPath (.file m.encode)) s := by
    intro s mem
    refine (erased.stored s mem).congr fun x ends _ => ?_
    rw [content_set_file, if_neg]
    intro same
    have same : x = MANIFEST_NAME := by simpa [SegmentStore.manifestPath] using same
    exact not_isSegmentName_manifest (same ▸ ends)
  have named : content (Dict.set (fs.erase (store.directory ++ [env.temporary MANIFEST_NAME])) store.manifestPath
      (.file m.encode)) store.manifestPath = some m.encode := by
    rw [content_set_file, if_pos rfl]
  refine ⟨⟨.inr ⟨dir, m, named, stored⟩, fun p other => ?_⟩, dir, named, stored⟩
  rw [content_set_file, if_neg fun same : p = store.manifestPath => other (same ▸ inside_append _ []),
    safe.outside p other]

/-! ## The staging directory -/

theorem elsewhere_staging (below : store.directory ++ [env.staging] <+: q) : Elsewhere store fs (fs.erase q) := by
  obtain ⟨rest, rfl⟩ := below
  have other (x : PyStr) (ne : x ≠ env.staging) : store.directory ++ [x] ≠ store.directory ++ [env.staging] ++ rest := by
    intro same
    rw [List.append_assoc, List.append_cancel_left_eq, List.singleton_append, List.cons.injEq] at same
    exact ne same.1
  refine ⟨fun dir => ?_, ?_, fun x ends _ => ?_, fun p out => ?_⟩
  · rw [IsDir, Dict.get?_erase, if_neg (by simp)]
    exact dir
  · rw [SegmentStore.manifestPath, content_erase, if_neg (other _ manifest_ne_staging)]
  · rw [content_erase, if_neg (other _ (IsSegmentName.ne_staging ends))]
  · rw [content_erase, if_neg]
    rintro rfl
    rw [List.append_assoc] at out
    exact out (inside_append _ _)

theorem triple_rmtree_staging (I : FileSystem → Prop) (kept : ∀ fs fs', Elsewhere store fs fs' → I fs → I fs') :
    Triple (Guarded store fs₀) I (rmtree (ε := Raised) (store.directory ++ [env.staging])) fun _ => I :=
  triple_rmtree fun fs _ safe start below =>
    ⟨safe.elsewhere (elsewhere_staging below), kept fs _ (elsewhere_staging below) start⟩

theorem Replaced.elsewhere (h : Replaced store env m fs) (step : Elsewhere store fs fs') : Replaced store env m fs' :=
  ⟨step.dir h.dir, step.manifest.trans h.manifest, fun s mem => (h.stored s mem).congr step.segment⟩

/-- The names that `mkdtemp` invents are new. -/
structure Fresh (store : SegmentStore) (env : Environment) (fs₀ : FileSystem) : Prop where
  parent : ∀ p, store.stagingParent env fs₀ ++ [env.staging] <+: p → fs₀.get? p = none
  directory : ∀ p, store.directory ++ [env.staging] <+: p → fs₀.get? p = none
  apart : ¬ store.stagingParent env fs₀ ++ [env.staging] <+: store.directory

/-- What is known while the staging directory is made in `parent` and moved. -/
structure Starting (store : SegmentStore) (env : Environment) (fs₀ : FileSystem) (parent : List PyStr)
    (fs : FileSystem) : Prop where
  same : ∀ p, fs.content p = fs₀.content p
  staging : fs.IsDir (parent ++ [env.staging])
  empty : ∀ p, store.directory ++ [env.staging] <+: p → p ≠ parent ++ [env.staging] → fs.get? p = none

theorem Starting.set_dir {parent : List PyStr} (h : Starting store env fs₀ parent fs) (above : q <+: store.directory)
    (absent : fs.get? q = none) : Starting store env fs₀ parent (fs.set q .dir) := by
  refine ⟨fun p => (content_set_dir (content_of_none absent) p).trans (h.same p), ?_, fun p below other => ?_⟩
  · rw [IsDir, Dict.get?_set]
    split
    · rfl
    · exact h.staging
  · rw [Dict.get?_set_of_ne, h.empty p below other]
    rintro rfl
    have := (below.trans above).length_le
    simp at this

theorem triple_moveStaging (fresh : Fresh store env fs₀) :
    Triple (Guarded store fs₀) (Starting store env fs₀ (store.stagingParent env fs₀))
      (store.moveStaging env (store.stagingParent env fs₀)) fun _ => Working store env fs₀ [] := by
  refine Triple.bind (Q := fun _ fs => Starting store env fs₀ (store.stagingParent env fs₀) fs ∧
    fs.IsDir store.directory) ?_ fun _ => ?_
  · refine triple_makedirs fun fs q _ start above absent _ => ?_
    have next := start.set_dir above absent
    exact ⟨.of_same next.same, next⟩
  · split
    · rename_i here
      refine Triple.pure fun fs _ start => ?_
      obtain ⟨start, dir⟩ := start
      rw [here] at start
      refine ⟨dir, start.staging, fun y isDir => ?_, start.same _, fun s mem => absurd mem List.not_mem_nil⟩
      rw [IsDir, start.empty _ (List.prefix_append _ _) (by simp)] at isDir
      cases isDir
    · rename_i elsewhere
      have other : store.directory ++ [env.staging] ≠ store.stagingParent env fs₀ ++ [env.staging] :=
        fun same => elsewhere (List.append_cancel_right same).symm
      refine triple_moveEmptyDir fun fs safe start absent => ?_
      obtain ⟨start, dir⟩ := start
      have free := start.empty _ (List.prefix_refl _) other
      have target : fs.moveTarget (store.stagingParent env fs₀ ++ [env.staging]) (store.directory ++ [env.staging]) =
          store.directory ++ [env.staging] := by
        rw [FileSystem.moveTarget, if_neg]
        intro isDir
        rw [IsDir, free] at isDir
        cases isDir
      rw [target]
      have same : ∀ p, content (Dict.set (fs.erase (store.stagingParent env fs₀ ++ [env.staging]))
          (store.directory ++ [env.staging]) .dir) p = fs₀.content p := by
        intro p
        rw [content_set_dir, content_erase]
        · split
          · rename_i here
            rw [← start.same p, here]
            exact (content_of_isDir start.staging).symm
          · exact start.same p
        · rw [content_erase, content_of_none free, ite_self]
      refine ⟨.of_same same, ?_, Dict.get?_set_self _ _ _, fun y isDir => ?_, same _,
        fun s mem => absurd mem List.not_mem_nil⟩
      · rw [IsDir, Dict.get?_set_of_ne _ _ (by simp), Dict.get?_erase, if_neg]
        · exact dir
        · intro same
          exact fresh.apart (same ▸ List.prefix_refl _)
      · rw [IsDir, Dict.get?_set_of_ne _ _ (by simp), Dict.get?_erase] at isDir
        split at isDir
        · cases isDir
        · rename_i away
          rw [start.empty _ (List.prefix_append _ _) away] at isDir
          cases isDir

/-- Removing what is below the directory that `mkdtemp` made. -/
theorem triple_rmtree_parent (fresh : Fresh store env fs₀) :
    Triple (Guarded store fs₀) (fun _ => True)
      (rmtree (ε := Raised) (store.stagingParent env fs₀ ++ [env.staging])) fun _ _ => True := by
  by_cases here : store.stagingParent env fs₀ = store.directory
  · rw [here]
    exact triple_rmtree_staging _ fun _ _ _ h => h
  refine triple_rmtree fun fs q safe _ below => ⟨?_, trivial⟩
  have other (x : PyStr) : store.directory ++ [x] ≠ q := by
    rintro rfl
    rcases List.prefix_concat_iff.1 below with same | above
    · exact here (List.append_inj_left' same rfl)
    · exact fresh.apart above
  refine safe.elsewhere ⟨fun dir => ?_, ?_, fun x _ _ => ?_, fun p out => ?_⟩
  · rw [IsDir, Dict.get?_erase, if_neg fun same : store.directory = q => fresh.apart (same ▸ below)]
    exact dir
  · rw [SegmentStore.manifestPath, content_erase, if_neg (other _)]
  · rw [content_erase, if_neg (other x)]
  · rw [content_erase]
    split
    · rename_i same
      rw [safe.outside p out, same, content_of_none (fresh.parent q below)]
    · rfl

/-! ## All of it -/

theorem triple_publishFrom {source : Source} (tame : Tame ((SegmentStore.ordered source).map Prod.fst)) :
    Triple (Guarded store fs₀) (Working store env fs₀ [])
      (store.publishFrom env source (store.directory ++ [env.staging])) fun m => Replaced store env m := by
  refine Triple.bind (triple_sections ⟨[], 0, 0⟩ tame) fun progress => ?_
  refine Triple.bind (triple_replaceManifest
    (m := ⟨source.generation, source.sha256, progress.segments, progress.written, progress.reused⟩)) fun _ => ?_
  exact Triple.pure fun _ _ done => done

theorem triple_publish {source : Source} (fresh : Fresh store env fs₀)
    (tame : Tame ((SegmentStore.ordered source).map Prod.fst)) :
    Triple (Guarded store fs₀) (· = fs₀) (store.publish env source) fun m => Replaced store env m := by
  refine Triple.bind (Q := fun parent fs => parent = store.stagingParent env fs₀ ∧ fs = fs₀) ?_ fun parent => ?_
  · refine Triple.read fun fs parent _ start read => ?_
    cases read
    exact ⟨by rw [start], start⟩
  refine Triple.bind (Q := fun _ fs => parent = store.stagingParent env fs₀ ∧ Starting store env fs₀ parent fs) ?_
    fun _ => ?_
  · refine triple_mkdir fun fs _ start absent above => ?_
    obtain ⟨rfl, rfl⟩ := start
    have same : ∀ p, content (fs.set (store.stagingParent env fs ++ [env.staging]) .dir) p = fs.content p :=
      content_set_dir (content_of_none absent)
    refine ⟨.of_same same, rfl, same, Dict.get?_set_self _ _ _, fun p below other => ?_⟩
    rw [Dict.get?_set_of_ne _ _ other]
    exact fresh.directory p below
  intro fs safe start
  obtain ⟨rfl, start⟩ := start
  have moved := (triple_moveStaging fresh).onError (triple_rmtree_parent fresh)
  refine (moved.bind fun _ => ?_) fs safe start
  exact (triple_publishFrom tame).finally_ (fun m => triple_rmtree_staging _ fun _ _ step done => done.elsewhere step)
    (triple_rmtree_staging _ fun _ _ _ h => h)

/-- Wherever `publish` stops, the manifest is the one that was there or names complete segments only, and no file outside
the directory has changed. -/
theorem publish_safe {source : Source} (fresh : Fresh store env fs₀)
    (tame : Tame ((SegmentStore.ordered source).map Prod.fst)) :
    ∀ fs, Stops (store.publish env source) fs₀ fs → Safe store fs₀ fs :=
  fun _ stop => ((triple_publish fresh tame).stops (.of_same fun _ => rfl) rfl stop).safe

/-! ## Samples -/

/-- An empty directory `/r`. -/
def sampleFiles : FileSystem := (Dict.empty.set [] .dir).set [("r" : PyStr)] .dir

/-- A store in `/r/segments`. -/
def sampleStore : SegmentStore := ⟨[("r" : PyStr), ("segments" : PyStr)]⟩

def sampleEnvironment : Environment := ⟨1, [("tmp" : PyStr)], "abcdefgh", by decide +kernel, by decide +kernel⟩

def sampleSource (name : PyStr) (new : name ∉ (["files", "symbols", "relations", "indexes", "strings"] : List PyStr)) :
    Source where
  sections := [("files", []), ("symbols", []), ("relations", []), ("indexes", []), ("strings", []), (name, [0x31])]
  generation := "0000000000000001"
  sha256 := List.replicate 64 (.scalar 'a')
  distinct := by
    have required : (["files", "symbols", "relations", "indexes", "strings"] : List PyStr).Nodup := by decide
    exact List.nodup_append.2 ⟨required, List.nodup_singleton name, fun a mem b same => by
      rintro rfl
      exact new (List.mem_singleton.1 same ▸ mem)⟩

theorem fresh_sample : Fresh sampleStore sampleEnvironment sampleFiles := by
  have parent : sampleStore.stagingParent sampleEnvironment sampleFiles = [("r" : PyStr)] := by decide
  have keys : sampleFiles.keys = [[], [("r" : PyStr)]] := by decide
  have long (p : List PyStr) (below : 1 < p.length) : sampleFiles.get? p = none := by
    rw [Dict.get?_eq_none_iff, keys]
    rintro mem
    rcases List.mem_cons.1 mem with rfl | mem
    · simp at below
    · cases List.mem_singleton.1 mem
      simp at below
  refine ⟨fun p below => long p ?_, fun p below => long p ?_, ?_⟩
  · rw [parent] at below
    exact below.length_le
  · exact Nat.lt_of_succ_lt below.length_le
  · rw [parent]
    decide

/-- A section with a plain name. -/
theorem publish_safe_vectors :
    Safe sampleStore sampleFiles
      (sampleStore.publish sampleEnvironment (sampleSource "vectors" (by decide)) sampleFiles).last :=
  publish_safe fresh_sample (tame_of_forall (by decide +kernel)) _ (.inr (.inr rfl))

/-- A section whose name goes up is written to the parent of the directory. -/
theorem not_safe_parent :
    ¬ Safe sampleStore sampleFiles
      (sampleStore.publish sampleEnvironment (sampleSource "../x" (by decide)) sampleFiles).last := by
  intro safe
  have outside := safe.outside [("r" : PyStr), leafName "../x" [0x31]] (by
    rintro ⟨below, -⟩
    have same := List.IsPrefix.eq_of_length below rfl
    have ends : IsSegmentName "segments" := by
      rw [show ("segments" : PyStr) = leafName "../x" [0x31] from (List.cons.inj (List.cons.inj same).2).1]
      exact suffix_leafName _ _
    revert ends
    unfold IsSegmentName
    decide)
  have written : (content (sampleStore.publish sampleEnvironment (sampleSource "../x" (by decide)) sampleFiles).last
    [("r" : PyStr), leafName "../x" [0x31]]).isSome = true := by decide +kernel
  rw [outside] at written
  revert written
  decide +kernel

end Segments

end SimplicioFast
