import SimplicioFast.Delivery.Engine
import SimplicioFast.Delivery.Write

/-!
# Writes and their receipts

A delivery changes files before it builds the snapshot of them and before it stores its receipt.  What raises
after the write leaves a write without a receipt: a snapshot that cannot be built from the new contents, a
receipt file that cannot be written, and the check of the fallback when one file is named in two ways.
-/

namespace SimplicioFast

namespace Delivery

/-- The receipt is one of an applied write of the request. -/
structure Receipt.Describes (r : Receipt) (call : Request) : Prop where
  status : r.status = "applied"
  mutation : r.mutationApplied = true
  digest : r.changesetSha256 = call.changeDigest
  key : r.key = call.key

variable (w : World) (files : Files) (call : Request) (receiptFile : PyStr → PyStr) (receipts : Receipts)

/-- A delivery that raises leaves every file as it was, and one that has changed a file has stored a receipt of
the write. -/
structure Atomic : Prop where
  restored : ∀ x, (deliver w files call receiptFile receipts).1 = .error x →
    (deliver w files call receiptFile receipts).2.1 = files
  recorded : (deliver w files call receiptFile receipts).2.1 ≠ files →
    ∃ r, (deliver w files call receiptFile receipts).2.2 (receiptFile call.key) = some r ∧ r.Describes call

/-! ## The condition -/

/-- The snapshot can be opened next to the files, and built from them unless it is integrated. -/
def Refreshable : Prop :=
  ∃ before, w.openSnapshot files = .ok before ∧
    (before.integrated = true ∨ ∃ after, w.buildSnapshot files = .ok after)

/-- When files have changed, the snapshot can be refreshed and the receipt can be stored. -/
def Receivable (after : Files) : Prop :=
  after ≠ files → Refreshable w after ∧ w.storeRaises (receiptFile call.key) = none

/-- A completed transaction leaves files of which a receipt can be stored. -/
def SoundEffect (changes : List Json) : Prop :=
  ∀ transaction outcome after, call.runtimeTransaction = some transaction →
    checkTransaction call.changeDigest changes transaction = .ok () → checkEffect transaction = .ok () →
      w.effectSink transaction files = (.ok outcome, after) → Completed outcome →
        Receivable w files call receiptFile after

/-- A write that goes through leaves files of which a receipt can be stored; when the processor is the one that
writes, no file is named in two ways with different results. -/
def SoundWrite (prepared : List PreparedChange) : Prop :=
  (∀ after, ByNative w.toWorkshop files prepared after → Receivable w files call receiptFile after) ∧
    (LeftToFallback w.toWorkshop files prepared → Writable w.toWorkshop prepared →
      (written files prepared ≠ files → Settled files prepared) ∧
        Receivable w files call receiptFile (written files prepared))

/-- The write of the request, when the request comes to it, is sound. -/
def Sound : Prop :=
  ∀ changes before, checkRequest w.snapshotFile call = .ok changes →
    receipts (receiptFile call.key) = none → w.openSnapshot files = .ok before → call.write = true →
      if call.profile = "full" then SoundEffect w files call receiptFile changes
      else ∀ prepared, prepareChanges w.toWorkshop files changes = .ok prepared →
        SoundWrite w files call receiptFile prepared

/-- What the Runtime and the Dev CLI are trusted with: a transaction that is not completed changes no file. -/
structure World.Disciplined (w : World) : Prop extends w.toWorkshop.Disciplined where
  incomplete : ∀ transaction files,
    (∀ outcome, (w.effectSink transaction files).1 = .ok outcome → ¬ Completed outcome) →
      (w.effectSink transaction files).2 = files

/-! ## After the write -/

variable {w files call receiptFile receipts} {changes : List Json} {after : Files} {base : PyStr}

theorem refreshAfterWrite_eq_ok_iff : (∃ p, refreshAfterWrite w after = .ok p) ↔ Refreshable w after := by
  constructor
  · rintro ⟨p, h⟩
    obtain ⟨before, opened, rest⟩ := bind_ok.1 h
    refine ⟨before, opened, ?_⟩
    by_cases integrated : before.integrated = true
    · exact .inl integrated
    · rw [if_neg integrated] at rest
      obtain ⟨built, e, -⟩ := bind_ok.1 rest
      exact .inr ⟨built, e⟩
  · rintro ⟨before, opened, integrated | ⟨built, e⟩⟩
    · refine ⟨(none, "mapper_refresh_required"), bind_ok.2 ⟨before, opened, ?_⟩⟩
      exact if_pos integrated
    · by_cases integrated : before.integrated = true
      · refine ⟨(none, "mapper_refresh_required"), bind_ok.2 ⟨before, opened, ?_⟩⟩
        exact if_pos integrated
      · refine ⟨(some built.generation, "refreshed"), bind_ok.2 ⟨before, opened, ?_⟩⟩
        rw [if_neg integrated]
        exact bind_ok.2 ⟨built, e, rfl⟩

theorem conclude_eq_ok_iff {outcome : JsonObject} (completed : Completed outcome) :
    (∃ r, conclude w after call base outcome = .ok r ∧ r.Describes call) ↔ Refreshable w after := by
  rw [← refreshAfterWrite_eq_ok_iff]
  unfold conclude
  rw [if_pos completed]
  constructor
  · rintro ⟨r, h, -⟩
    obtain ⟨p, refreshed, -⟩ := bind_ok.1 h
    exact ⟨p, refreshed⟩
  · rintro ⟨p, refreshed⟩
    exact ⟨_, bind_ok.2 ⟨p, refreshed, rfl⟩, rfl, rfl, rfl, rfl⟩

theorem refreshWhen_eq_ok_iff (base : PyStr) :
    (∃ p, refreshWhen w after true base = .ok p) ↔ Refreshable w after := by
  rw [← refreshAfterWrite_eq_ok_iff]
  constructor
  · rintro ⟨_, h⟩
    obtain ⟨p, refreshed, -⟩ := bind_ok.1 h
    exact ⟨p, refreshed⟩
  · rintro ⟨p, refreshed⟩
    exact ⟨_, bind_ok.2 ⟨p, refreshed, rfl⟩⟩

theorem recordApplied_eq_ok_iff {applied : ApplyReceipt} (write : call.write = true)
    (done : applied.applied = true) (paths : ∃ l, changePaths changes = .ok l) :
    (∃ r, recordApplied w after call changes base applied = .ok r ∧ r.Describes call) ↔
      Refreshable w after := by
  rw [← refreshWhen_eq_ok_iff base, recordApplied, write, done]
  constructor
  · rintro ⟨r, h, -⟩
    obtain ⟨p, refreshed, -⟩ := bind_ok.1 h
    exact ⟨p, refreshed⟩
  · rintro ⟨p, refreshed⟩
    obtain ⟨l, paths⟩ := paths
    refine ⟨appliedReceipt call base l applied p.1 p.2, ?_, ?_, done, rfl, rfl⟩
    · refine bind_ok.2 ⟨p, refreshed, ?_⟩
      exact bind_ok.2 ⟨l, paths, rfl⟩
    · change (if applied.applied then _ else _) = _
      rw [if_pos done]

theorem changePaths_of_prepareChanges {prepared : List PreparedChange} {v : Workshop}
    (h : prepareChanges v files changes = .ok prepared) : ∃ l, changePaths changes = .ok l := by
  induction changes generalizing prepared with
  | nil => exact ⟨[], rfl⟩
  | cons change changes ih =>
    rw [prepareChanges, List.mapM_cons] at h
    obtain ⟨item, first, h₁⟩ := bind_ok.1 h
    obtain ⟨items, others, -⟩ := bind_ok.1 h₁
    obtain ⟨l, more⟩ := ih others
    obtain ⟨path, field, h₂⟩ := bind_ok.1 first
    obtain ⟨expected, -, h₃⟩ := bind_ok.1 h₂
    obtain ⟨replacements, -, h₄⟩ := bind_ok.1 h₃
    obtain ⟨_, required, -⟩ := bind_ok.1 h₄
    have found : ∃ value, subscript change "path" = .ok value := by
      cases change with
      | obj fields =>
        cases path with
        | none => cases required
        | some value =>
          have here : Dict.find fields "path" = some value := Except.ok.inj field
          exact ⟨value, by rw [subscript, here]⟩
      | _ => cases field
    obtain ⟨value, found⟩ := found
    refine ⟨value :: l, ?_⟩
    rw [changePaths] at more ⊢
    rw [List.mapM_cons, found, more]
    rfl

/-! ## A delivery -/

/-- What a delivery owes when it has changed files: a receipt of the write that can be stored. -/
def Owes (w : World) (files : Files) (call : Request) (file : PyStr)
    (result : Except Raised Receipt × Files) : Prop :=
  result.2 ≠ files → ∃ r, result.1 = .ok r ∧ w.storeRaises file = none ∧ r.Describes call

variable {result : Except Raised Receipt × Files} {file : PyStr}

theorem owes_of_same (h : result.2 = files) : Owes w files call file result := fun differ => absurd h differ

/-- When the receipt of a write comes exactly under `R`, what is owed can be given exactly under `R`. -/
theorem owes_iff {R : Prop} (h : result.2 ≠ files → ((∃ r, result.1 = .ok r ∧ r.Describes call) ↔ R)) :
    Owes w files call file result ↔ (result.2 ≠ files → R ∧ w.storeRaises file = none) := by
  refine forall_congr' fun differ => ?_
  rw [← h differ]
  constructor
  · rintro ⟨r, returned, stores, describes⟩
    exact ⟨⟨r, returned, describes⟩, stores⟩
  · rintro ⟨⟨r, returned, describes⟩, stores⟩
    exact ⟨r, returned, stores, describes⟩

theorem atomic_iff_owes (check : checkRequest w.snapshotFile call = .ok changes)
    (unstored : receipts (receiptFile call.key) = none) : Atomic w files call receiptFile receipts ↔
      Owes w files call (receiptFile call.key) (carryOut w files call changes) := by
  have anew : deliver w files call receiptFile receipts = _ := deliver_of_unstored check unstored
  unfold deliverAnew storeReceipt at anew
  constructor
  · rintro ⟨restored, recorded⟩ differ
    rw [anew] at restored recorded
    cases carried : carryOut w files call changes with
    | mk answer after =>
      rw [carried] at differ restored recorded
      cases answer with
      | error x => exact absurd (restored x rfl) differ
      | ok r =>
        cases stores : w.storeRaises (receiptFile call.key) with
        | some x =>
          simp only [stores] at restored
          exact absurd (restored x rfl) differ
        | none =>
          simp only [stores] at recorded
          obtain ⟨r', found, describes⟩ := recorded differ
          rw [putReceipt, if_pos rfl] at found
          cases found
          exact ⟨r, rfl, rfl, describes⟩
  · intro owes
    by_cases same : (carryOut w files call changes).2 = files
    · refine ⟨fun _ _ => ?_, fun differ => absurd ?_ differ⟩
      all_goals
        rw [anew]
        cases carried : carryOut w files call changes with
        | mk answer after =>
          rw [carried] at same
          cases answer with
          | error x => exact same
          | ok r => exact same
    · obtain ⟨r, returned, stores, describes⟩ := owes same
      cases carried : carryOut w files call changes with
      | mk answer after =>
        rw [carried] at returned anew
        cases returned
        simp only [stores] at anew
        refine ⟨fun x raised => ?_, fun _ => ⟨r, ?_, describes⟩⟩
        · rw [anew] at raised
          cases raised
        · rw [anew]
          exact if_pos rfl

/-! ### Transactions -/

variable (changes base)

theorem fullEffect_of_raised {transaction : JsonObject} {x : Raised}
    (given : call.runtimeTransaction = some transaction)
    (h : submit w files call changes transaction = (.error x, after)) :
    (fullEffect w files call changes base).2 = after := by
  rw [fullEffect, given]
  simp only [h]
  cases caught x with
  | none => rfl
  | some name => rfl

theorem fullEffect_of_returned {transaction outcome : JsonObject}
    (given : call.runtimeTransaction = some transaction)
    (h : submit w files call changes transaction = (.ok outcome, after)) :
    fullEffect w files call changes base = (conclude w after call base outcome, after) := by
  rw [fullEffect, given]
  simp only [h]

theorem soundEffect_iff {transaction : JsonObject} (given : call.runtimeTransaction = some transaction) :
    SoundEffect w files call receiptFile changes ↔ ∀ outcome after,
      checkTransaction call.changeDigest changes transaction = .ok () → checkEffect transaction = .ok () →
        w.effectSink transaction files = (.ok outcome, after) → Completed outcome →
          Receivable w files call receiptFile after := by
  constructor
  · exact fun sound outcome after => sound transaction outcome after given
  · intro sound t outcome after same
    rw [given] at same
    cases same
    exact sound outcome after

theorem fullEffect_owes_iff (h : w.Disciplined) :
    Owes w files call (receiptFile call.key) (fullEffect w files call changes base) ↔
      SoundEffect w files call receiptFile changes := by
  cases given : call.runtimeTransaction with
  | none =>
    refine iff_of_true (owes_of_same ?_) fun transaction _ _ same => ?_
    · rw [fullEffect, given]
    · rw [given] at same
      cases same
  | some transaction =>
    rw [soundEffect_iff changes given]
    cases first : checkTransaction call.changeDigest changes transaction with
    | error x =>
      have e : submit w files call changes transaction = (.error x, files) := by rw [submit, first]
      exact iff_of_true (owes_of_same (fullEffect_of_raised changes base given e)) nofun
    | ok _ =>
      cases second : checkEffect transaction with
      | error x =>
        have e : submit w files call changes transaction = (.error x, files) := by
          rw [submit, first]
          simp only [second]
        exact iff_of_true (owes_of_same (fullEffect_of_raised changes base given e)) nofun
      | ok _ =>
        have e : submit w files call changes transaction = w.effectSink transaction files := by
          rw [submit, first]
          simp only [second]
        have unchanged := h.incomplete transaction files
        cases sunk : w.effectSink transaction files with
        | mk answer after =>
          rw [sunk] at e unchanged
          cases answer with
          | error x =>
            have same : after = files := unchanged nofun
            exact iff_of_true (owes_of_same ((fullEffect_of_raised changes base given e).trans same)) nofun
          | ok outcome =>
            have whole := fullEffect_of_returned changes base given e
            by_cases completed : Completed outcome
            · have receipt : (∃ r, (fullEffect w files call changes base).1 = .ok r ∧ r.Describes call) ↔
                  Refreshable w after := by
                rw [whole]
                exact conclude_eq_ok_iff completed
              rw [owes_iff fun _ => receipt, whole]
              constructor
              · rintro receivable _ _ - - ⟨⟩ -
                exact receivable
              · exact fun sound => sound outcome after rfl rfl rfl completed
            · have same : after = files := unchanged fun _ ok => by
                cases ok
                exact completed
              refine iff_of_true (owes_of_same (by rw [whole]; exact same)) ?_
              rintro _ _ - - ⟨⟩ done
              exact absurd done completed

/-! ### Change sets -/

theorem localEffect_snd :
    (localEffect w files call changes base).2 = (applyChangeset w.toWorkshop files call.write changes).2 := by
  unfold localEffect
  split
  · next h => rw [h]
  · next h => rw [h]

theorem localEffect_of_raised {x : Raised}
    (h : applyChangeset w.toWorkshop files call.write changes = (.error x, after)) :
    localEffect w files call changes base = (.error x, after) := by
  rw [localEffect, h]

theorem localEffect_of_applied {applied : ApplyReceipt}
    (h : applyChangeset w.toWorkshop files call.write changes = (.ok applied, after)) :
    localEffect w files call changes base = (recordApplied w after call changes base applied, after) := by
  rw [localEffect, h]

theorem applyChangeset_of_prepared {prepared : List PreparedChange} {write : Bool}
    (h : prepareChanges w.toWorkshop files changes = .ok prepared) :
    applyChangeset w.toWorkshop files write changes = applyPrepared w.toWorkshop files write prepared := by
  rw [applyChangeset, h]

theorem localEffect_dry (h : w.Disciplined) (dry : call.write = false) :
    (localEffect w files call changes base).2 = files := by
  rw [localEffect_snd, dry]
  cases prepares : prepareChanges w.toWorkshop files changes with
  | error x => rw [applyChangeset, prepares]
  | ok prepared =>
    rw [applyChangeset_of_prepared changes prepares]
    exact applyPrepared_dry h.toDisciplined (prepareChanges_reads prepares)

theorem byNative_unique {v : Workshop} {prepared : List PreparedChange} {one other : Files}
    (h : ByNative v files prepared one) (h' : ByNative v files prepared other) : one = other := by
  obtain ⟨native, found, e, -⟩ := h
  obtain ⟨native', found', e', -⟩ := h'
  rw [found] at found'
  cases found'
  exact e.symm.trans e'

theorem localEffect_owes_iff (h : w.Disciplined) (write : call.write = true)
    {prepared : List PreparedChange} (prepares : prepareChanges w.toWorkshop files changes = .ok prepared) :
    Owes w files call (receiptFile call.key) (localEffect w files call changes base) ↔
      SoundWrite w files call receiptFile prepared := by
  have reads := prepareChanges_reads prepares
  have paths := changePaths_of_prepareChanges prepares
  have applies : applyChangeset w.toWorkshop files call.write changes =
      applyPrepared w.toWorkshop files true prepared := by
    rw [write, applyChangeset_of_prepared changes prepares]
  rcases applyPrepared_write h.toDisciplined reads with
    ⟨after, r, lands, e, done⟩ | ⟨left, code, l, e⟩ | ⟨notLeft, notNative, e⟩
  · have whole := localEffect_of_applied changes base (applies.trans e)
    have receipt : (∃ r, (localEffect w files call changes base).1 = .ok r ∧ r.Describes call) ↔
        Refreshable w after := by
      rw [whole]
      exact recordApplied_eq_ok_iff write done paths
    rw [owes_iff fun _ => receipt, whole]
    constructor
    · intro receivable
      refine ⟨fun other lands' => ?_, fun left => absurd lands (left.2 after)⟩
      rw [byNative_unique lands' lands]
      exact receivable
    · exact fun sound => sound.1 after lands
  · by_cases writable : Writable w.toWorkshop prepared
    · have written' := e.trans (fallback_of_writable reads writable)
      have snd : (localEffect w files call changes base).2 = written files prepared := by
        rw [localEffect_snd, applies, written']
      have receipt : (∃ r, (localEffect w files call changes base).1 = .ok r ∧ r.Describes call) ↔
          Settled files prepared ∧ Refreshable w (written files prepared) := by
        rw [← fallbackReceipt_eq_ok_iff code l reads]
        cases told : fallbackReceipt (written files prepared) true prepared code l with
        | error x =>
          rw [told] at written'
          rw [localEffect_of_raised changes base (applies.trans written')]
          exact iff_of_false nofun nofun
        | ok applied =>
          rw [told] at written'
          rw [localEffect_of_applied changes base (applies.trans written')]
          constructor
          · rintro ⟨r, recorded, describes⟩
            have done : applied.applied = true := applied_of_fallbackReceipt told
            refine ⟨⟨applied, rfl, done⟩, (recordApplied_eq_ok_iff write done paths).1 ⟨r, recorded, describes⟩⟩
          · rintro ⟨⟨_, ⟨⟩, done⟩, refreshable⟩
            exact (recordApplied_eq_ok_iff write done paths).2 refreshable
      rw [owes_iff fun _ => receipt, snd]
      constructor
      · intro owed
        refine ⟨fun other lands => absurd lands (left.2 other), fun _ _ => ⟨fun differ => ?_, fun differ => ?_⟩⟩
        · exact (owed differ).1.1
        · exact ⟨(owed differ).1.2, (owed differ).2⟩
      · intro sound differ
        obtain ⟨settled, receivable⟩ := sound.2 left writable
        exact ⟨⟨settled differ, (receivable differ).1⟩, (receivable differ).2⟩
    · refine iff_of_true (owes_of_same ?_) ⟨fun other lands => absurd lands (left.2 other), fun _ ok => absurd ok writable⟩
      rw [localEffect_snd, applies, e]
      exact fallback_of_not_writable reads writable
  · refine iff_of_true (owes_of_same ?_) ⟨fun other lands => absurd lands (notNative other), fun left => absurd left notLeft⟩
    rw [localEffect_snd, applies, e]

variable {changes}

theorem sound_iff {before : SnapshotInfo} (check : checkRequest w.snapshotFile call = .ok changes)
    (unstored : receipts (receiptFile call.key) = none) (opened : w.openSnapshot files = .ok before)
    (write : call.write = true) : Sound w files call receiptFile receipts ↔
      if call.profile = "full" then SoundEffect w files call receiptFile changes
      else ∀ prepared, prepareChanges w.toWorkshop files changes = .ok prepared →
        SoundWrite w files call receiptFile prepared := by
  constructor
  · exact fun sound => sound changes before check unstored opened write
  · intro sound changes' _ check' _ _ _
    rw [check] at check'
    cases check'
    exact sound

/-- A delivery is atomic exactly when its write is sound. -/
theorem atomic_iff_sound (h : w.Disciplined) :
    Atomic w files call receiptFile receipts ↔ Sound w files call receiptFile receipts := by
  cases check : checkRequest w.snapshotFile call with
  | error x =>
    have e : deliver w files call receiptFile receipts = _ := deliver_of_refused check
    refine iff_of_true ⟨fun _ _ => by rw [e], fun differ => absurd (by rw [e]) differ⟩ ?_
    intro _ _ ok
    rw [check] at ok
    cases ok
  | ok changes =>
    cases stored : receipts (receiptFile call.key) with
    | some r =>
      have e : deliver w files call receiptFile receipts = _ := deliver_of_stored check stored
      refine iff_of_true ⟨fun _ _ => by rw [e], fun differ => absurd (by rw [e]) differ⟩ ?_
      intro _ _ _ none
      rw [stored] at none
      cases none
    | none =>
      rw [atomic_iff_owes check stored]
      cases opened : w.openSnapshot files with
      | error x =>
        refine iff_of_true (owes_of_same (by rw [carryOut, opened])) ?_
        intro _ _ _ _ ok
        rw [opened] at ok
        cases ok
      | ok before =>
        have carried : carryOut w files call changes =
            if call.profile = "full" ∧ call.write then fullEffect w files call changes before.generation
            else localEffect w files call changes before.generation := by
          rw [carryOut, opened]
        rw [carried]
        cases write : call.write with
        | false =>
          rw [if_neg fun h => Bool.false_ne_true h.2]
          refine iff_of_true (owes_of_same (localEffect_dry changes _ h write)) ?_
          intro _ _ _ _ _ ok
          rw [write] at ok
          cases ok
        | true =>
          rw [sound_iff check stored opened write]
          by_cases full : call.profile = "full"
          · rw [if_pos ⟨full, rfl⟩, if_pos full]
            exact fullEffect_owes_iff changes _ h
          · rw [if_neg fun h => full h.1, if_neg full]
            cases prepares : prepareChanges w.toWorkshop files changes with
            | error x =>
              refine iff_of_true (owes_of_same ?_) nofun
              rw [localEffect_snd, applyChangeset, prepares]
            | ok prepared =>
              rw [localEffect_owes_iff changes _ h write prepares]
              constructor
              · rintro sound _ ⟨⟩
                exact sound
              · exact fun sound => sound prepared rfl

theorem disciplined_sampleWorld (buildSnapshot : Files → Except Raised SnapshotInfo) :
    (sampleWorld buildSnapshot).Disciplined where
  confined := nofun
  stale := nofun
  incomplete _ _ _ := rfl

theorem settled_singleton (files : Files) (item : PreparedChange) : Settled files [item] := by
  intro other mem
  rw [List.mem_singleton.1 mem]
  simp [written, expectedAfter]

/-- A write of one change in a world that can refresh its snapshot is atomic. -/
theorem atomic_sampleRequest : Atomic (sampleWorld fun _ => .ok ⟨"g2", false⟩) sampleFiles
    (sampleRequest "x = 2\n") id fun _ => none := by
  refine (atomic_iff_sound (disciplined_sampleWorld _)).2 ?_
  intro changes before check _ _ _
  rw [if_neg (by decide)]
  intro prepared prepares
  have receivable (after : Files) : Receivable (sampleWorld fun _ => .ok ⟨"g2", false⟩) sampleFiles
      (sampleRequest "x = 2\n") id after := fun _ => ⟨⟨_, rfl, .inr ⟨_, rfl⟩⟩, rfl⟩
  refine ⟨fun after _ => receivable after, fun _ _ => ⟨fun _ => ?_, receivable _⟩⟩
  cases check.symm.trans (checkRequest_sampleRequest (fun _ => .ok ⟨"g2", false⟩) "x = 2\n" none)
  obtain ⟨item, -, h⟩ := bind_ok.1 prepares
  cases h
  exact settled_singleton _ item

def sampleBuild (files : Files) : Except Raised SnapshotInfo :=
  if files "a.py" = some (PyStr.asciiBytes "x = (\n") then .error (.other "SourceParseError" true)
  else .ok ⟨"g2", false⟩

/-- A change that leaves a source without a syntax tree is written, and the delivery raises. -/
theorem not_atomic_unparsable :
    ¬ Atomic (sampleWorld sampleBuild) sampleFiles (sampleRequest "x = (\n") id fun _ => none := by
  intro atomic
  have facts : (deliver (sampleWorld sampleBuild) sampleFiles (sampleRequest "x = (\n") id
      fun _ => none).1.isOk = false ∧ (deliver (sampleWorld sampleBuild) sampleFiles
        (sampleRequest "x = (\n") id fun _ => none).2.1 "a.py" ≠ sampleFiles "a.py" := by
    decide +kernel
  cases raised : (deliver (sampleWorld sampleBuild) sampleFiles (sampleRequest "x = (\n") id
      fun _ => none).1 with
  | ok r =>
    rw [raised] at facts
    cases facts.1
  | error x => exact facts.2 (congrFun (atomic.restored x raised) "a.py")

end Delivery

end SimplicioFast
