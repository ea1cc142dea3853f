import SimplicioFast.Delivery.Processor

/-!
# What an applied change set leaves behind

A change set that has been read (`Reads`) is written by the processor when its files can be replaced and no
change of a file stands after another one that alters it (`Writable`).  A write that does not go through takes
back what it has written, and what the Dev CLI has written is restored before the processor writes.
-/

namespace SimplicioFast

namespace Delivery

variable {w : Workshop} {files files' base : Files} {item : PreparedChange}
  {prepared rest applied : List PreparedChange} {x : Raised}

/-! ## Files -/

@[simp] theorem put_self (files : Files) (p : PyStr) (b : Bytes) : put files p b p = some b := if_pos rfl

theorem put_of_ne {p q : PyStr} (files : Files) (b : Bytes) (h : q ≠ p) : put files p b q = files q :=
  if_neg h

theorem put_put (files : Files) (p : PyStr) (b c : Bytes) : put (put files p b) p c = put files p c := by
  funext q
  by_cases h : q = p
  · rw [h, put_self, put_self]
  · rw [put_of_ne _ _ h, put_of_ne _ _ h, put_of_ne _ _ h]

theorem put_eq_self {p : PyStr} {b : Bytes} (h : files p = some b) : put files p b = files := by
  funext q
  by_cases e : q = p
  · rw [e, put_self, h]
  · exact put_of_ne _ _ e

theorem readBytes_of_some {p : PyStr} {b : Bytes} (h : files p = some b) : readBytes files p = .ok b := by
  rw [readBytes, h]

theorem readBytes_eq_ok {p : PyStr} {b : Bytes} (h : readBytes files p = .ok b) : files p = some b := by
  unfold readBytes at h
  split at h
  · next found =>
    cases h
    exact found
  · cases h

/-! ## Prepared changes -/

/-- Every change has been made to the content that its file has. -/
def Reads (files : Files) (prepared : List PreparedChange) : Prop :=
  ∀ item ∈ prepared, files item.path = some item.original

theorem prepareChange_reads {change : Json} (h : prepareChange w files change = .ok item) :
    files item.path = some item.original := by
  obtain ⟨_, -, h₁⟩ := bind_ok.1 h
  obtain ⟨_, -, h₂⟩ := bind_ok.1 h₁
  obtain ⟨_, -, h₃⟩ := bind_ok.1 h₂
  obtain ⟨_, -, h₄⟩ := bind_ok.1 h₃
  obtain ⟨_, -, h₅⟩ := bind_ok.1 h₄
  obtain ⟨original, read, h₆⟩ := bind_ok.1 h₅
  obtain ⟨_, -, h₇⟩ := bind_ok.1 h₆
  obtain ⟨_, -, h₈⟩ := bind_ok.1 h₇
  obtain ⟨_, -, h₉⟩ := bind_ok.1 h₈
  cases h₉
  exact readBytes_eq_ok read

theorem mem_of_mapM_eq_ok {α β ε : Type} {f : α → Except ε β} {l : List α} {l' : List β}
    (h : l.mapM f = .ok l') : ∀ b ∈ l', ∃ a ∈ l, f a = .ok b := by
  induction l generalizing l' with
  | nil =>
    cases h
    simp
  | cons a l ih =>
    rw [List.mapM_cons] at h
    obtain ⟨b, first, h₁⟩ := bind_ok.1 h
    obtain ⟨bs, others, h₂⟩ := bind_ok.1 h₁
    cases h₂
    intro c mem
    rcases List.mem_cons.1 mem with rfl | mem
    · exact ⟨a, List.mem_cons_self, first⟩
    · obtain ⟨a', mem', called⟩ := ih others c mem
      exact ⟨a', List.mem_cons_of_mem _ mem', called⟩

theorem prepareChanges_reads {changes : List Json} (h : prepareChanges w files changes = .ok prepared) :
    Reads files prepared := by
  intro item mem
  obtain ⟨change, -, read⟩ := mem_of_mapM_eq_ok h item mem
  exact prepareChange_reads read

theorem Reads.of_cons (h : Reads files (item :: rest)) :
    files item.path = some item.original ∧ Reads files rest :=
  List.forall_mem_cons.1 h

/-! ## Writing -/

/-- The files with every change written. -/
def written (files : Files) (prepared : List PreparedChange) : Files :=
  prepared.foldl (fun files item => put files item.path item.updated) files

/-- Every file can be replaced, and a change of a file that alters it is the last one of the file. -/
def Writable (w : Workshop) (prepared : List PreparedChange) : Prop :=
  (∀ item ∈ prepared, w.replaceable item.path) ∧
    prepared.Pairwise fun a b => b.path = a.path → a.updated = a.original

theorem writeItem_eq_ok_iff : writeItem w files item = .ok files' ↔
    files item.path = some item.original ∧ w.replaceable item.path ∧
      files' = put files item.path item.updated := by
  constructor
  · intro h
    obtain ⟨current, read, h₁⟩ := bind_ok.1 h
    obtain ⟨_, same, h₂⟩ := bind_ok.1 h₁
    have same := of_decide_eq_true (require_eq_ok_iff.1 same)
    rw [same] at read
    unfold atomicReplace at h₂
    split_ifs at h₂ with replaceable
    cases h₂
    exact ⟨readBytes_eq_ok read, replaceable, rfl⟩
  · rintro ⟨read, replaceable, rfl⟩
    refine bind_ok.2 ⟨_, readBytes_of_some read, ?_⟩
    refine bind_ok.2 ⟨(), require_eq_ok_iff.2 (decide_eq_true rfl), ?_⟩
    exact if_pos replaceable

theorem writeFrom_error (start : takeBack files applied = base)
    (h : (writeFrom w files applied rest).1 = .error x) : (writeFrom w files applied rest).2 = base := by
  induction rest generalizing files applied with
  | nil => cases h
  | cons item rest ih =>
    rw [writeFrom] at h ⊢
    cases write : writeItem w files item with
    | error y => exact start
    | ok changed =>
      rw [write] at h
      obtain ⟨read, -, rfl⟩ := writeItem_eq_ok_iff.1 write
      refine ih ?_ h
      change takeBack (put (put files item.path item.updated) item.path item.original) applied = base
      rw [put_put, put_eq_self read, start]

theorem writeFrom_ok (h : (writeFrom w files applied rest).1 = .ok ()) :
    (writeFrom w files applied rest).2 = written files rest := by
  induction rest generalizing files applied with
  | nil => rfl
  | cons item rest ih =>
    rw [writeFrom] at h ⊢
    cases write : writeItem w files item with
    | error y =>
      rw [write] at h
      cases h
    | ok changed =>
      rw [write] at h
      obtain ⟨-, -, rfl⟩ := writeItem_eq_ok_iff.1 write
      exact ih h

theorem reads_of_writeFrom (agree : ∀ a ∈ rest, ∀ b ∈ rest, b.path = a.path → b.original = a.original)
    (h : (writeFrom w files applied rest).1 = .ok ()) : Reads files rest := by
  induction rest generalizing files applied with
  | nil =>
    intro _ mem
    cases mem
  | cons item rest ih =>
    rw [writeFrom] at h
    cases write : writeItem w files item with
    | error y =>
      rw [write] at h
      cases h
    | ok changed =>
      rw [write] at h
      obtain ⟨read, -, rfl⟩ := writeItem_eq_ok_iff.1 write
      have later := ih (fun a ha b hb => agree a (List.mem_cons_of_mem _ ha) b (List.mem_cons_of_mem _ hb)) h
      refine List.forall_mem_cons.2 ⟨read, fun b mem => ?_⟩
      by_cases same : b.path = item.path
      · rw [same, read, agree item List.mem_cons_self b (List.mem_cons_of_mem _ mem) same]
      · rw [← later b mem, put_of_ne _ _ same]

theorem writeFrom_eq_ok_iff (reads : Reads files rest) :
    (writeFrom w files applied rest).1 = .ok () ↔ Writable w rest := by
  induction rest generalizing files applied with
  | nil => exact iff_of_true rfl ⟨fun _ mem => (by cases mem), .nil⟩
  | cons item rest ih =>
    obtain ⟨read, reads⟩ := reads.of_cons
    have agree : ∀ a ∈ rest, ∀ b ∈ rest, b.path = a.path → b.original = a.original := by
      intro a ha b hb same
      have one := reads b hb
      rw [same, reads a ha] at one
      exact (Option.some.inj one).symm
    have next (unaltered : ∀ b ∈ rest, b.path = item.path → item.updated = item.original) :
        Reads (put files item.path item.updated) rest := by
      intro b mem
      by_cases same : b.path = item.path
      · have one := reads b mem
        rw [same, read] at one
        rw [same, put_self, unaltered b mem same]
        exact one
      · rw [put_of_ne _ _ same, reads b mem]
    rw [writeFrom]
    constructor
    · intro h
      cases write : writeItem w files item with
      | error y =>
        rw [write] at h
        cases h
      | ok changed =>
        rw [write] at h
        obtain ⟨-, replaceable, rfl⟩ := writeItem_eq_ok_iff.1 write
        have later := reads_of_writeFrom agree h
        have unaltered : ∀ b ∈ rest, b.path = item.path → item.updated = item.original := by
          intro b mem same
          have one := reads b mem
          have two := later b mem
          rw [same, read] at one
          rw [same, put_self] at two
          exact Option.some.inj (two.trans one.symm)
        obtain ⟨replaceables, pairs⟩ := (ih (next unaltered)).1 h
        exact ⟨List.forall_mem_cons.2 ⟨replaceable, replaceables⟩, .cons unaltered pairs⟩
    · rintro ⟨replaceables, pairs⟩
      obtain ⟨replaceable, replaceables⟩ := List.forall_mem_cons.1 replaceables
      obtain ⟨unaltered, pairs⟩ := List.pairwise_cons.1 pairs
      rw [writeItem_eq_ok_iff.2 ⟨read, replaceable, rfl⟩]
      exact (ih (next unaltered)).2 ⟨replaceables, pairs⟩

/-- `_write_prepared` writes every change or none. -/
theorem writePrepared_of_writable (reads : Reads files prepared) (h : Writable w prepared) :
    writePrepared w files prepared = (.ok (), written files prepared) := by
  have ends : (writeFrom w files [] prepared).1 = .ok () := (writeFrom_eq_ok_iff reads).2 h
  exact Prod.ext ends (writeFrom_ok ends)

theorem writePrepared_of_not_writable (reads : Reads files prepared) (h : ¬ Writable w prepared) :
    ∃ x, writePrepared w files prepared = (.error x, files) := by
  cases result : (writePrepared w files prepared).1 with
  | ok u => exact absurd ((writeFrom_eq_ok_iff reads).1 result) h
  | error x => exact ⟨x, Prod.ext result (writeFrom_error rfl result)⟩

/-! ## Records -/

/-- The record of a change whose file is there. -/
def recordOf (files : Files) (item : PreparedChange) : FileRecord :=
  ⟨item.relative, item.replacements, item.expectedSha256, sha256 item.original,
    sha256 ((files item.path).getD []), sha256 item.updated,
    if newlineOf item.updated = "\r\n" then "crlf" else "lf"⟩

/-- The files of the changes are there. -/
def Present (files : Files) (prepared : List PreparedChange) : Prop :=
  ∀ item ∈ prepared, (files item.path).isSome

theorem Reads.present (h : Reads files prepared) : Present files prepared := by
  intro item mem
  rw [h item mem]
  rfl

theorem isSome_written {p : PyStr} (h : (files p).isSome) : (written files prepared p).isSome := by
  induction prepared generalizing files with
  | nil => exact h
  | cons item prepared ih =>
    apply ih
    change (put files item.path item.updated p).isSome
    by_cases same : p = item.path
    · rw [same, put_self]
      rfl
    · rw [put_of_ne _ _ same, h]

theorem fileRecords_of_present (h : Present files prepared) :
    fileRecords files prepared = .ok (prepared.map (recordOf files)) := by
  induction prepared with
  | nil => rfl
  | cons item prepared ih =>
    obtain ⟨here, others⟩ := List.forall_mem_cons.1 h
    obtain ⟨b, found⟩ := Option.isSome_iff_exists.1 here
    have one : fileRecord files item = .ok (recordOf files item) := by
      rw [fileRecord, readBytes_of_some found, recordOf, found]
      rfl
    have more := ih others
    rw [fileRecords] at more ⊢
    rw [List.mapM_cons, one, more]
    rfl

/-! ## Restoring -/

/-- Only files of the changes are not as before, and these are there and can be replaced. -/
def Confined (w : Workshop) (base files : Files) (prepared : List PreparedChange) : Prop :=
  ∀ p, files p ≠ base p → p ∈ prepared.map PreparedChange.path ∧ (files p).isSome ∧ w.replaceable p

theorem Confined.refl (w : Workshop) (files : Files) (prepared : List PreparedChange) :
    Confined w files files prepared := fun _ h => absurd rfl h

theorem Confined.present (h : Confined w base files prepared) (reads : Reads base prepared) :
    Present files prepared := by
  intro item mem
  by_cases same : files item.path = base item.path
  · rw [same, reads item mem]
    rfl
  · exact (h _ same).2.1

theorem restoreItem_of_same (read : files item.path = some item.original) :
    restoreItem w files item = .ok (false, files) := by
  refine bind_ok.2 ⟨_, readBytes_of_some read, ?_⟩
  exact if_pos rfl

theorem restoreItem_of_other {b : Bytes} (read : files item.path = some b) (h : b ≠ item.original)
    (replaceable : w.replaceable item.path) :
    restoreItem w files item = .ok (true, put files item.path item.original) := by
  refine bind_ok.2 ⟨_, readBytes_of_some read, ?_⟩
  rw [if_neg h]
  refine bind_ok.2 ⟨put files item.path item.original, ?_, rfl⟩
  exact if_pos replaceable

theorem restoreFrom_of_confined (reads : Reads base rest) (confined : Confined w base files rest)
    (restored : List PyStr) : ∃ l, restoreFrom w files restored rest = (.ok l, base) := by
  induction rest generalizing files restored with
  | nil =>
    have same : files = base := by
      funext p
      by_contra differ
      cases (confined p differ).1
    exact ⟨restored, by rw [same]; rfl⟩
  | cons item rest ih =>
    obtain ⟨read, reads⟩ := reads.of_cons
    -- a file that differs after this turn belongs to one of the changes left
    have later {f : Files} (here : f item.path = base item.path)
        (sub : ∀ p, f p ≠ base p → f p = files p) : Confined w base f rest := by
      intro p differ
      have known := sub p differ
      obtain ⟨mem, rest⟩ := confined p (known ▸ differ)
      refine ⟨?_, known ▸ rest⟩
      rcases List.mem_cons.1 mem with rfl | mem
      · exact absurd here differ
      · exact mem
    obtain ⟨b, current⟩ := Option.isSome_iff_exists.1 (confined.present
      (List.forall_mem_cons.2 ⟨read, reads⟩) item List.mem_cons_self)
    rw [restoreFrom]
    by_cases same : b = item.original
    · rw [same] at current
      rw [restoreItem_of_same current]
      exact ih reads (later (current.trans read.symm) fun _ _ => rfl) _
    · have differ : files item.path ≠ base item.path := by
        rw [current, read]
        exact fun e => same (Option.some.inj e)
      rw [restoreItem_of_other current same (confined _ differ).2.2]
      refine ih reads (later ?_ fun p other => ?_) _
      · rw [put_self, read]
      · refine put_of_ne _ _ ?_
        rintro rfl
        rw [put_self, read] at other
        exact other rfl

/-! ## The processor's own write -/

/-- The last change of every file and the last change under every relative path of the file leave the same
digest. -/
def Settled (files : Files) (prepared : List PreparedChange) : Prop :=
  ∀ item ∈ prepared,
    (written files prepared item.path).map sha256 = expectedAfter true prepared item.relative

variable {write : Bool} {code : PyStr} {restored : List PyStr}

theorem fallback_of_dry : (fallback w files false prepared code restored).2 = files := rfl

theorem fallback_of_not_writable (reads : Reads files prepared) (h : ¬ Writable w prepared) :
    (fallback w files true prepared code restored).2 = files := by
  obtain ⟨x, raised⟩ := writePrepared_of_not_writable reads h
  rw [fallback, if_pos rfl, raised]

theorem fallback_of_writable (reads : Reads files prepared) (h : Writable w prepared) :
    fallback w files true prepared code restored =
      (fallbackReceipt (written files prepared) true prepared code restored, written files prepared) := by
  rw [fallback, if_pos rfl, writePrepared_of_writable reads h]

theorem fallbackReceipt_of_present (h : Present files prepared) :
    fallbackReceipt files write prepared code restored =
      if (prepared.map (recordOf files)).any fun r => some r.afterSha256 ≠ expectedAfter write prepared r.path
      then .error (.runtimeError "internal fallback produced an unexpected output hash")
      else .ok (receiptOf write "internal-bootstrap" (prepared.map (recordOf files)) (some code) restored) := by
  rw [fallbackReceipt, fileRecords_of_present h]
  rfl

theorem applied_of_fallbackReceipt {r : ApplyReceipt}
    (h : fallbackReceipt files write prepared code restored = .ok r) : r.applied = write := by
  obtain ⟨records, -, h₁⟩ := bind_ok.1 h
  split_ifs at h₁
  cases h₁
  rfl

theorem fallbackReceipt_eq_ok_iff (code : PyStr) (restored : List PyStr) (reads : Reads files prepared) :
    (∃ r, fallbackReceipt (written files prepared) true prepared code restored = .ok r ∧ r.applied = true) ↔
      Settled files prepared := by
  have present : Present (written files prepared) prepared :=
    fun item mem => isSome_written (reads.present item mem)
  have sound (item : PreparedChange) (mem : item ∈ prepared) :
      some (recordOf (written files prepared) item).afterSha256 =
        (written files prepared item.path).map sha256 := by
    obtain ⟨b, found⟩ := Option.isSome_iff_exists.1 (present item mem)
    rw [recordOf, found]
    rfl
  rw [fallbackReceipt_of_present present]
  constructor
  · rintro ⟨r, e, -⟩ item mem
    by_contra differ
    rw [if_pos] at e
    · cases e
    · refine List.any_eq_true.2 ⟨_, List.mem_map_of_mem mem, decide_eq_true ?_⟩
      rw [sound item mem]
      exact differ
  · intro settled
    refine ⟨_, if_neg fun wrong => ?_, rfl⟩
    obtain ⟨r, mem, differ⟩ := List.any_eq_true.1 wrong
    obtain ⟨item, here, rfl⟩ := List.mem_map.1 mem
    exact of_decide_eq_true differ ((sound item here).trans (settled item here))

/-! ## The Dev CLI -/

/-- The Dev CLI has succeeded, and every file of the changes has the digest that it is to have. -/
def Landed (write : Bool) (prepared : List PreparedChange) (answer : NativeAnswer) (files : Files) : Prop :=
  ∃ result, answer = .returned result ∧ nativeSucceeded write result ∧ ∀ item ∈ prepared,
    (files item.path).map sha256 = some (sha256 (if write then item.updated else item.original))

theorem refused_of_confined (reads : Reads base prepared) (confined : Confined w base files prepared) :
    ∃ l, refused w files write prepared code = fallback w base write prepared code l := by
  obtain ⟨l, back⟩ := restoreFrom_of_confined reads confined []
  refine ⟨l, ?_⟩
  rw [refused, fileRecords_of_present (confined.present reads)]
  simp only [restorePrepared, back, fileRecords_of_present reads.present]
  refine if_neg fun wrong => ?_
  obtain ⟨r, mem, differ⟩ := List.any_eq_true.1 wrong
  obtain ⟨item, here, rfl⟩ := List.mem_map.1 mem
  refine of_decide_eq_true differ ?_
  change sha256 ((base item.path).getD []) = sha256 item.original
  rw [reads item here, Option.getD_some]

theorem any_differs_iff (present : Present files prepared) :
    (prepared.map (recordOf files)).any (differs write) = false ↔ ∀ item ∈ prepared,
      (files item.path).map sha256 = some (sha256 (if write then item.updated else item.original)) := by
  rw [List.any_map, List.any_eq_false]
  refine forall₂_congr fun item mem => ?_
  obtain ⟨b, found⟩ := Option.isSome_iff_exists.1 (present item mem)
  rw [Function.comp_apply, found, Option.map_some, Option.some.injEq]
  cases write <;> simp [differs, recordOf, found]

theorem succeeded_of_right (present : Present files prepared)
    (right : (prepared.map (recordOf files)).any (differs write) = false) :
    succeeded w files write prepared =
      (.ok (receiptOf write "simplicio-dev-cli" (prepared.map (recordOf files)) none []), files) := by
  rw [succeeded, fileRecords_of_present present]
  simp only [right, Bool.false_eq_true, if_false]

theorem succeeded_of_wrong (reads : Reads base prepared) (confined : Confined w base files prepared)
    (wrong : (prepared.map (recordOf files)).any (differs write) = true) :
    ∃ l, succeeded w files write prepared =
      fallback w base write prepared "native_output_hash_mismatch" l := by
  obtain ⟨l, back⟩ := restoreFrom_of_confined reads confined []
  rw [succeeded, fileRecords_of_present (confined.present reads)]
  simp only [wrong, if_true, restorePrepared, back]
  exact refused_of_confined reads (.refl w base prepared)

theorem delegated_eq_inl_iff {answer : NativeAnswer} {result : JsonObject} :
    delegated answer = .ok (.inl result) ↔ answer = .returned result := by
  cases answer with
  | returned r => simp [delegated]
  | malformed => simp [delegated]
  | raised x message =>
    refine iff_of_false (fun h => ?_) nofun
    cases x with
    | valueError m =>
      simp only [delegated] at h
      split_ifs at h
      cases h
    | _ => cases h

theorem answered_cases (write : Bool) (answer : NativeAnswer) (reads : Reads base prepared)
    (confined : Confined w base files prepared) :
    (∃ x, delegated answer = .error x ∧ answered w files write prepared answer = (.error x, files)) ∨
    (Landed write prepared answer files ∧
      ∃ r, answered w files write prepared answer = (.ok r, files) ∧ r.applied = write) ∨
    ((∀ x, delegated answer ≠ .error x) ∧ ¬ Landed write prepared answer files ∧
      ∃ code l, answered w files write prepared answer = fallback w base write prepared code l) := by
  have present := confined.present reads
  cases told : delegated answer with
  | error x => exact .inl ⟨x, rfl, by rw [answered, told]⟩
  | ok told' =>
    refine .inr ?_
    cases told' with
    | inr code =>
      obtain ⟨l, e⟩ := refused_of_confined reads confined
      refine .inr ⟨nofun, ?_, code, l, ?_⟩
      · rintro ⟨result, rfl, -⟩
        cases told
      · rw [answered, told]
        exact e
    | inl result =>
      obtain rfl := delegated_eq_inl_iff.1 told
      have body : answered w files write prepared (.returned result) =
          if nativeSucceeded write result then succeeded w files write prepared
          else refused w files write prepared (refusalCode result) := rfl
      rw [body]
      by_cases success : nativeSucceeded write result
      · rw [if_pos success]
        cases wrong : (prepared.map (recordOf files)).any (differs write) with
        | false =>
          have right := (any_differs_iff present).1 wrong
          exact .inl ⟨⟨result, rfl, success, right⟩, _, succeeded_of_right present wrong, rfl⟩
        | true =>
          obtain ⟨l, e⟩ := succeeded_of_wrong reads confined wrong
          refine .inr ⟨nofun, ?_, _, l, e⟩
          rintro ⟨_, -, -, right⟩
          rw [(any_differs_iff present).2 right] at wrong
          cases wrong
      · have back : ∃ l, refused w files write prepared (refusalCode result) =
            fallback w base write prepared (refusalCode result) l := refused_of_confined reads confined
        obtain ⟨l, e⟩ := back
        refine .inr ⟨nofun, ?_, refusalCode result, l, ?_⟩
        · rintro ⟨_, same, success', -⟩
          cases same
          exact success success'
        · rw [if_neg success]
          exact e

/-! ## Applying -/

/-- What the Dev CLI is trusted with: it leaves alone what the changes do not touch, removes no file, and what it
writes can be written again; in a dry run, and when it raises a stale source hash, it writes nothing. -/
structure Workshop.Disciplined (w : Workshop) : Prop where
  confined : ∀ native, w.native = some native → ∀ write paths files p,
    (native write paths files).2 p ≠ files p →
      write = true ∧ p ∈ paths ∧ ((native write paths files).2 p).isSome ∧ w.replaceable p
  stale : ∀ native, w.native = some native → ∀ write paths files x,
    delegated (native write paths files).1 = .error x → (native write paths files).2 = files

/-- The Dev CLI leaves the files with what the change set asks for. -/
def ByNative (w : Workshop) (files : Files) (prepared : List PreparedChange) (after : Files) : Prop :=
  ∃ native, w.native = some native ∧ (native true (prepared.map PreparedChange.path) files).2 = after ∧
    Landed true prepared (native true (prepared.map PreparedChange.path) files).1 after

/-- The Dev CLI does not write the change set and does not raise a stale source hash. -/
def LeftToFallback (w : Workshop) (files : Files) (prepared : List PreparedChange) : Prop :=
  (∀ native, w.native = some native → ∀ x,
    delegated (native true (prepared.map PreparedChange.path) files).1 ≠ .error x) ∧
  ∀ after, ¬ ByNative w files prepared after

theorem Workshop.Disciplined.confine (h : w.Disciplined)
    {native : Bool → List PyStr → Files → NativeAnswer × Files} (found : w.native = some native) :
    Confined w files (native write (prepared.map PreparedChange.path) files).2 prepared :=
  fun p differ => (h.confined native found _ _ _ p differ).2

theorem Workshop.Disciplined.dry (h : w.Disciplined)
    {native : Bool → List PyStr → Files → NativeAnswer × Files} (found : w.native = some native)
    (paths : List PyStr) : (native false paths files).2 = files := by
  funext p
  by_contra differ
  cases (h.confined native found _ _ _ p differ).1

theorem applyPrepared_of_native {native : Bool → List PyStr → Files → NativeAnswer × Files}
    (found : w.native = some native) : applyPrepared w files write prepared =
      answered w (native write (prepared.map PreparedChange.path) files).2 write prepared
        (native write (prepared.map PreparedChange.path) files).1 := by
  rw [applyPrepared, found]

theorem applyPrepared_dry (h : w.Disciplined) (reads : Reads files prepared) :
    (applyPrepared w files false prepared).2 = files := by
  cases found : w.native with
  | none => rw [applyPrepared, found]; exact fallback_of_dry
  | some native =>
    have same : (native false (prepared.map PreparedChange.path) files).2 = files := h.dry found _
    rw [applyPrepared_of_native found, same]
    rcases answered_cases false (native false (prepared.map PreparedChange.path) files).1 reads
        (.refl w files prepared) with ⟨x, -, e⟩ | ⟨-, r, e, -⟩ | ⟨-, -, code, l, e⟩
    · exact congrArg Prod.snd e
    · exact congrArg Prod.snd e
    · exact (congrArg Prod.snd e).trans fallback_of_dry

theorem applyPrepared_write (h : w.Disciplined) (reads : Reads files prepared) :
    (∃ after r, ByNative w files prepared after ∧
      applyPrepared w files true prepared = (.ok r, after) ∧ r.applied = true) ∨
    (LeftToFallback w files prepared ∧
      ∃ code l, applyPrepared w files true prepared = fallback w files true prepared code l) ∨
    (¬ LeftToFallback w files prepared ∧ (∀ after, ¬ ByNative w files prepared after) ∧
      (applyPrepared w files true prepared).2 = files) := by
  cases found : w.native with
  | none =>
    refine .inr (.inl ⟨⟨?_, ?_⟩, "native_unavailable", [], ?_⟩)
    · intro native same
      rw [found] at same
      cases same
    · rintro after ⟨native, same, -⟩
      rw [found] at same
      cases same
    · rw [applyPrepared, found]
  | some native =>
    have only {after : Files} (landed : ByNative w files prepared after) :
        Landed true prepared (native true (prepared.map PreparedChange.path) files).1
          (native true (prepared.map PreparedChange.path) files).2 := by
      obtain ⟨other, same, e, landed⟩ := landed
      rw [found] at same
      cases same
      rwa [← e] at landed
    rw [applyPrepared_of_native found]
    rcases answered_cases true (native true (prepared.map PreparedChange.path) files).1 reads
        (h.confine found) with ⟨x, told, e⟩ | ⟨landed, r, e, applied⟩ | ⟨told, lands, code, l, e⟩
    · have same := h.stale native found true (prepared.map PreparedChange.path) files x told
      refine .inr (.inr ⟨fun left => left.1 native found x told, fun after landed => ?_, ?_⟩)
      · obtain ⟨result, returned, -⟩ := only landed
        rw [returned] at told
        cases told
      · exact (congrArg Prod.snd e).trans same
    · exact .inl ⟨_, r, ⟨native, found, rfl, landed⟩, e, applied⟩
    · refine .inr (.inl ⟨⟨?_, fun after landed => lands (only landed)⟩, code, l, e⟩)
      intro other same
      rw [found] at same
      cases same
      exact told

end Delivery

end SimplicioFast
