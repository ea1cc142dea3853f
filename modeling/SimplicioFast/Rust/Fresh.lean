import SimplicioFast.Lib.Literals
import SimplicioFast.Lib.Sha256Eval
import SimplicioFast.Rust.Session
import Mathlib.Data.List.Induction

/-!
# Answers of a session

A request that names the generation which is published now, or none, should be answered from what is published now.
The session answers it from the reader that it holds.  So the answer is fresh exactly when that reader has the
generation which is published now (`along_fresh_iff`); a path that was published again stays stale for the rest of the
session.
-/

namespace SimplicioFast

namespace RustCore

variable {σ : Type} {serde : Serde} {queries : Queries σ} {published : Dict PyStr Bytes} {snapshots : Snapshots}
  {path other : PyStr} {generation : Option PyStr} {current reader : SnapshotReader}

/-- The request names the published generation, or none. -/
def Follows (generation : Option PyStr) (current : SnapshotReader) : Prop :=
  generation = none ∨ generation = some current.generation

theorem resident_eq (opened : openReader serde published path = .ok current) :
    (resident serde published snapshots path).2 = .ok ((snapshots.get? path).getD current) := by
  unfold resident
  cases snapshots.get? path with
  | some reader => rfl
  | none =>
    dsimp only
    rw [opened]
    rfl

theorem sessionSnapshot_fresh_iff (opened : openReader serde published path = .ok current)
    (follows : Follows generation current) :
    (∃ reader, (sessionSnapshot serde published snapshots path generation).2 = .ok reader ∧
      reader.generation = current.generation) ↔
        ∀ reader, snapshots.get? path = some reader → reader.generation = current.generation := by
  have outcome : (sessionSnapshot serde published snapshots path generation).2 =
      if generation.all (· = ((snapshots.get? path).getD current).generation) then
        .ok ((snapshots.get? path).getD current)
      else .error "generation_mismatch" := by
    show (resident serde published snapshots path).2 >>= _ = _
    rw [resident_eq opened]
    rfl
  rw [outcome]
  constructor
  · rintro ⟨served, same, fresh⟩ reader held
    rw [held, Option.getD_some] at same
    split_ifs at same
    cases same
    exact fresh
  · intro fresh
    have same : ((snapshots.get? path).getD current).generation = current.generation := by
      cases held : snapshots.get? path with
      | none => rfl
      | some reader => exact fresh reader held
    refine ⟨_, if_pos ?_, same⟩
    rw [same]
    rcases follows with rfl | rfl
    · rfl
    · exact decide_eq_true rfl

namespace SessionRun

variable (serde queries)

/-- The line asks for an answer of the reader of the published snapshot `current`, and follows the publications. -/
def Asks (s : SessionRun σ) (line : Bytes) (path : PyStr) (generation : Option PyStr)
    (answer : SnapshotReader → Except PyStr Json) (current : SnapshotReader) : Prop :=
  (∃ value, frame serde line = some value ∧
    request serde queries s.world.sources value = .ok (.read path generation answer)) ∧
    openReader serde s.world.published path = .ok current ∧ Follows generation current

/-- A line that follows the publications is answered from a reader of the generation which is published now. -/
def Fresh (s : SessionRun σ) : Event σ → Prop
  | .line line => ∀ path generation answer current, s.Asks serde queries line path generation answer current →
      ∃ reader, (sessionSnapshot serde s.world.published s.snapshots path generation).2 = .ok reader ∧
        reader.generation = current.generation ∧
          (respond serde queries s.world s.snapshots line).2 = answer reader
  | _ => True

/-- The reader that the session holds for the path of the line, if any, has the generation which is published now. -/
def Undisturbed (s : SessionRun σ) : Event σ → Prop
  | .line line => ∀ path generation answer current, s.Asks serde queries line path generation answer current →
      ∀ reader, s.snapshots.get? path = some reader → reader.generation = current.generation
  | _ => True

variable {serde queries} {s : SessionRun σ}

/-- The answer to a line is that of the reader which `session_snapshot` returns. -/
theorem respond_of_asks {line : Bytes} {answer : SnapshotReader → Except PyStr Json}
    (asks : s.Asks serde queries line path generation answer current) :
    (respond serde queries s.world s.snapshots line).2 =
      (sessionSnapshot serde s.world.published s.snapshots path generation).2 >>= answer := by
  obtain ⟨⟨value, framed, asked⟩, -⟩ := asks
  unfold respond
  rw [framed]
  dsimp only
  unfold sessionExecute
  rw [asked]

theorem fresh_iff (e : Event σ) : s.Fresh serde queries e ↔ s.Undisturbed serde queries e := by
  cases e with
  | publish path raw => exact Iff.rfl
  | edit sources => exact Iff.rfl
  | line line =>
    refine forall_congr' fun path => forall_congr' fun generation => forall_congr' fun answer =>
      forall_congr' fun current => forall_congr' fun asks => ?_
    rw [← sessionSnapshot_fresh_iff asks.2.1 asks.2.2, respond_of_asks asks]
    refine exists_congr fun reader => and_congr_right fun served => and_iff_left ?_
    rw [served]
    rfl

/-- In a session, with any publications in between, every line that follows the publications is answered from the
generation which is published then, exactly when the reader that the session holds for its path, if any, is of that
generation. -/
theorem along_fresh_iff (serde : Serde) (queries : Queries σ) (s : SessionRun σ) (events : List (Event σ)) :
    Machine.Along (step serde queries) (Fresh serde queries) s events ↔
      Machine.Along (step serde queries) (Undisturbed serde queries) s events :=
  Machine.along_congr_of_invariant (I := fun _ => True) trivial (fun _ _ _ => trivial) fun _ e _ => fresh_iff e

/-! ## The readers that a session holds -/

/-! ## A path that is published twice -/

theorem not_along_fresh {line : Bytes} {value : Json} {answer : SnapshotReader → Except PyStr Json} {sources : σ}
    {raw raw' : Bytes} {first second : SnapshotReader} (framed : frame serde line = some value)
    (asked : request serde queries sources value = .ok (.read path none answer))
    (opened : openReader serde (Dict.empty.set path raw) path = .ok first)
    (opened' : openReader serde ((Dict.empty.set path raw).set path raw') path = .ok second)
    (differ : first.generation ≠ second.generation) :
    ¬ Machine.Along (step serde queries) (Fresh serde queries) ⟨⟨.empty, sources⟩, .empty⟩
      [.publish path raw, .line line, .publish path raw', .line line] := by
  rw [along_fresh_iff]
  rintro ⟨-, -, -, undisturbed, -⟩
  have held : (respond serde queries ⟨Dict.empty.set path raw, sources⟩ .empty line).1.get? path = some first := by
    unfold respond
    rw [framed]
    dsimp only
    unfold sessionExecute
    rw [asked]
    show (resident serde (Dict.empty.set path raw) .empty path).1.get? path = some first
    unfold resident
    rw [Dict.get?_empty, opened]
    exact Dict.get?_set_self _ _ _
  exact differ (undisturbed path none answer second ⟨⟨value, framed, asked⟩, opened', .inl rfl⟩ first held)

/-- The section `indexes` of a snapshot without symbols. -/
def emptyIndexes : Bytes :=
  PyStr.asciiBytes "\x7b\"exact\":\x7b\x7d,\"kinds\":\x7b\x7d,\"names\":\x7b\x7d,\"paths\":\x7b\x7d\x7d"

def hexBytes (digest : String) : Bytes := (Bytes.fromHex digest.toList).getD []

def directoryRow (name : PyStr) (offset length : ℕ) (digest : String) : Bytes :=
  Struct.blob 16 (PyStr.encodeAscii name) ++ Bytes.packLE 8 offset ++ Bytes.packLE 8 length ++ hexBytes digest

def emptyDirectory : Bytes :=
  directoryRow "files" 400 0 "e3b0c44298fc1c149afbf4c8996fb92427ae41e4649b934ca495991b7852b855" ++
  directoryRow "symbols" 400 0 "e3b0c44298fc1c149afbf4c8996fb92427ae41e4649b934ca495991b7852b855" ++
  directoryRow "relations" 400 2 "4f53cda18c2baa0c0354bb5f9a3ecbe5ed12ab4d8e11ba873c2f11161202b945" ++
  directoryRow "indexes" 408 45 "d585c34c00c05e27791f5482c4fafcf11db251da64b249ffdab523ea6e71aafc" ++
  directoryRow "strings" 456 0 "e3b0c44298fc1c149afbf4c8996fb92427ae41e4649b934ca495991b7852b855"

def emptySnapshot (number : ℕ) (checksum : String) : Bytes :=
  MAGIC ++ Bytes.packLE 2 VERSION ++ Bytes.packLE 2 ENDIAN_MARKER ++ Bytes.packLE 4 5 ++ Bytes.packLE 8 number ++
    Bytes.packLE 8 80 ++ Bytes.packLE 8 320 ++ Bytes.packLE 8 456 ++ hexBytes checksum ++ emptyDirectory ++
    PyStr.asciiBytes "[]" ++ List.replicate 6 0 ++ emptyIndexes ++ List.replicate 3 0

def firstSnapshot : Bytes :=
  emptySnapshot 1 "cd8cab1bbbc60af110ae5f138ec2e27e9e76e021c8a8413e407f401b665bd69f"

def secondSnapshot : Bytes :=
  emptySnapshot 2 "431d994696f6a6cef14322c38089088c631db537f8e009c9966d8a1ad5ec5cab"

/-- A request for the stats of the snapshot `s`. -/
def statsRequest : Json := .obj [("operation", .str "stats"), ("payload", .obj [("snapshot", .str "s")])]

def statsText : PyStr := "\x7b\"operation\":\"stats\",\"payload\":\x7b\"snapshot\":\"s\"\x7d\x7d"

def emptySerde : Serde where
  relations b := if b = PyStr.asciiBytes "[]" then some [] else none
  indexes b := if b = emptyIndexes then some ⟨[], [], [], []⟩ else none
  fromStr s := if s = statsText then some statsRequest else none

def emptyQueries : Queries Unit where
  queryFilteredAfter _ _ _ _ _ _ := .ok ⟨[], "legacy.names+exact-substring", 0, 0, none⟩
  contextWithReceipt _ _ _ _ _ _ _ _ := .ok ⟨[], 0, 0, 0⟩

theorem frame_statsText : frame emptySerde (PyStr.encodeAscii statsText) = some statsRequest := by
  unfold frame
  have decoded : PyStr.decode (PyStr.encodeAscii statsText) = some statsText := by decide +kernel
  rw [if_pos (by decide +kernel), decoded]
  show (if statsText = statsText then some statsRequest else none) = _
  rw [if_pos rfl]

theorem opens_firstSnapshot : (fromStorage emptySerde firstSnapshot).toOption.isSome = true := by
  unfold fromStorage openHeader firstSnapshot emptySnapshot emptyDirectory directoryRow hexBytes
  simp (disch := decide +kernel) only [Literals.toList_eq_asciiChars, Sha256.digest_eq]
  decide +kernel

theorem opens_secondSnapshot : (fromStorage emptySerde secondSnapshot).toOption.isSome = true := by
  unfold fromStorage openHeader secondSnapshot emptySnapshot emptyDirectory directoryRow hexBytes
  simp (disch := decide +kernel) only [Literals.toList_eq_asciiChars, Sha256.digest_eq]
  decide +kernel

theorem digest_firstSnapshot_ne : Sha256.digest firstSnapshot ≠ Sha256.digest secondSnapshot := by
  unfold firstSnapshot secondSnapshot emptySnapshot emptyDirectory directoryRow hexBytes
  simp (disch := decide +kernel) only [Literals.toList_eq_asciiChars, Sha256.digest_eq]
  decide +kernel

theorem digest_of_opened {raw : Bytes} (opened : fromStorage serde raw = .ok reader) :
    reader.digest = Sha256.digest raw := by
  unfold fromStorage at opened
  obtain ⟨_, _, opened⟩ := bind_ok.1 opened
  obtain ⟨_, _, opened⟩ := bind_ok.1 opened
  obtain ⟨_, _, opened⟩ := bind_ok.1 opened
  cases opened
  rfl

theorem length_of_opened {raw : Bytes} (opened : fromStorage serde raw = .ok reader) :
    raw.length ≤ MAX_SNAPSHOT_BYTES := by
  unfold fromStorage openHeader at opened
  obtain ⟨_, header, _⟩ := bind_ok.1 opened
  obtain ⟨_, _, header⟩ := bind_ok.1 header
  obtain ⟨_, short, _⟩ := bind_ok.1 header
  unfold ensure at short
  split_ifs at short with bound
  exact of_decide_eq_true bound

theorem exists_openReader {raw : Bytes} (found : published.get? path = some raw)
    (opens : (fromStorage serde raw).toOption.isSome = true) :
    ∃ reader, openReader serde published path = .ok reader ∧ reader.digest = Sha256.digest raw := by
  cases opened : fromStorage serde raw with
  | error e =>
    rw [opened] at opens
    cases opens
  | ok reader =>
    refine ⟨reader, ?_, digest_of_opened opened⟩
    unfold openReader ensure
    rw [found]
    dsimp only
    rw [if_pos (decide_eq_true (length_of_opened opened))]
    exact opened

theorem digest_of_generation {first second : SnapshotReader} (same : first.generation = second.generation) :
    first.digest = second.digest :=
  Bytes.hex_injective (PyStr.ofChars_injective (List.append_cancel_left same))

/-- The stats that are read after the second publication are those of the first snapshot. -/
theorem not_along_fresh_republished :
    ¬ ∀ (serde : Serde) (queries : Queries Unit) (events : List (Event Unit)),
      Machine.Along (step serde queries) (Fresh serde queries) ⟨⟨.empty, ()⟩, .empty⟩ events := by
  intro all
  obtain ⟨first, opened, one⟩ := exists_openReader
    (Dict.get?_set_self (.empty : Dict PyStr Bytes) "s" firstSnapshot) opens_firstSnapshot
  obtain ⟨second, opened', two⟩ := exists_openReader
    (Dict.get?_set_self ((.empty : Dict PyStr Bytes).set "s" firstSnapshot) "s" secondSnapshot) opens_secondSnapshot
  have asked : request emptySerde emptyQueries () statsRequest = .ok (.read "s" none (stats emptySerde)) := rfl
  refine not_along_fresh frame_statsText asked opened opened' (fun same => ?_) (all emptySerde emptyQueries _)
  have equal := digest_of_generation same
  rw [one, two] at equal
  exact digest_firstSnapshot_ne equal

end SessionRun

end RustCore

end SimplicioFast
