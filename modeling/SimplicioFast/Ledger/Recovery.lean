import SimplicioFast.Ledger.Store

/-!
# Recovering a ledger store

A run appends events, is cut short by crashes, and recovers.  The files are consistent with the
events that are held: each file is its header, the records or entries of these events, and a tail
that an interrupted append has left.

`append` writes its record behind such a tail, while the index goes on from the last event, so that
the next recovery finds an entry with the wrong offset.  In a run that writes no entry while HBP has
a tail, and recovers only stores with complete headers, every recovery leaves exactly the events that
are held (`along_recovers`).
-/

namespace SimplicioFast

/-- A call of a run; a crash leaves the first `p` bytes for HBP and the first `q` for HBI. -/
inductive StoreCall
  | append (e : LedgerEvent)
  | crash (e : LedgerEvent) (p q : ℕ)
  | recover

/-- The files, and the events whose append has completed or has been left whole by a crash. -/
structure StoreState where
  files : LedgerFiles
  held : List LedgerEvent

namespace LedgerStore

/-! ## The bytes of the files -/

def records : ℕ → List Bytes → Bytes
  | _, [] => []
  | sequence, p :: ps => packRecord sequence p ++ records (sequence + 1) ps

/-- The index entries of the payloads, when the first record is at the offset. -/
def entries : ℕ → ℕ → List Bytes → Bytes
  | _, _, [] => []
  | sequence, offset, p :: ps =>
    packEntry ⟨sequence, offset, p.length, Sha256.digest p⟩ ++
      entries (sequence + 1) (offset + recordHeaderSize + p.length) ps

/-- The payload can be read as a JSON object. -/
def Readable (p : Bytes) : Prop :=
  ∃ s fields, PyStr.decode p = some s ∧ Json.loads s = some (.obj fields)

/-- The payloads can be packed and read. -/
def Fits : ℕ → ℕ → List Bytes → Prop
  | _, _, [] => True
  | sequence, offset, p :: ps => (sequence < 2 ^ 64 ∧ offset < 2 ^ 64 ∧
      p.length ≤ MAX_RECORD_BYTES ∧ Readable p) ∧
    Fits (sequence + 1) (offset + recordHeaderSize + p.length) ps

variable {s o n : ℕ} {p a b c : Bytes} {ps qs : List Bytes} {e : LedgerEvent} {x : IndexEntry}

@[simp] theorem length_packRecord : (packRecord s p).length = recordHeaderSize + p.length := by
  simp [packRecord, recordHeaderSize]
  omega

theorem length_packEntry (digest : x.digest.length = 32) : (packEntry x).length = entrySize := by
  simp [packEntry, digest, entrySize]

theorem length_entries : (entries s o ps).length = ps.length * entrySize := by
  induction ps generalizing s o with
  | nil => simp [entries]
  | cons p ps ih =>
    rw [entries, List.length_append, length_packEntry (Sha256.length_digest p), ih, List.length_cons]
    ring

theorem records_append : records s (ps ++ qs) = records s ps ++ records (s + ps.length) qs := by
  induction ps generalizing s with
  | nil => rfl
  | cons p ps ih =>
    rw [List.cons_append, records, records, ih, List.append_assoc, List.length_cons]
    congr 3
    omega

theorem entries_append : entries s o (ps ++ qs) =
    entries s o ps ++ entries (s + ps.length) (o + (records s ps).length) qs := by
  induction ps generalizing s o with
  | nil => rfl
  | cons p ps ih =>
    rw [List.cons_append, entries, entries, ih, List.append_assoc, records, List.length_cons,
      List.length_append, length_packRecord]
    congr 3 <;> omega

theorem records_push : records 0 (ps ++ [p]) = records 0 ps ++ packRecord ps.length p := by
  rw [records_append, records, records, List.append_nil, Nat.zero_add]

theorem entries_push : entries 0 o (ps ++ [p]) = entries 0 o ps ++
    packEntry ⟨ps.length, o + (records 0 ps).length, p.length, Sha256.digest p⟩ := by
  rw [entries_append, entries, entries, List.append_nil, Nat.zero_add]

theorem fits_append : Fits s o (ps ++ qs) ↔
    Fits s o ps ∧ Fits (s + ps.length) (o + (records s ps).length) qs := by
  induction ps generalizing s o with
  | nil => simp [Fits, records]
  | cons p ps ih =>
    rw [List.cons_append, Fits, Fits, ih, records, List.length_cons, List.length_append,
      length_packRecord, ← Nat.add_assoc, ← Nat.add_assoc, ← Nat.add_assoc, Nat.add_right_comm s]
    exact and_assoc.symm

/-! ## Reading the files -/

theorem unpackEntry_packEntry (hs : x.sequence < 2 ^ 64) (ho : x.offset < 2 ^ 64)
    (hl : x.length < 2 ^ 32) : unpackEntry (packEntry x) = x := by
  have eight (n : ℕ) (b : Bytes) : (Bytes.packBE 8 n ++ b).take 8 = Bytes.packBE 8 n :=
    List.take_left' (Bytes.length_packBE 8 n)
  have rest (w n : ℕ) (b : Bytes) : (Bytes.packBE w n ++ b).drop w = b :=
    List.drop_left' (Bytes.length_packBE w n)
  have drop16 (b : Bytes) : b.drop 16 = (b.drop 8).drop 8 := by rw [List.drop_drop]
  have drop20 (b : Bytes) : b.drop 20 = ((b.drop 8).drop 8).drop 4 := by
    rw [List.drop_drop, List.drop_drop]
  obtain ⟨sequence, offset, length, digest⟩ := x
  simp only [unpackEntry, packEntry, drop16, drop20, eight, rest,
    List.take_left' (Bytes.length_packBE 4 length), Bytes.unpackBE_packBE (w := 8) hs,
    Bytes.unpackBE_packBE (w := 8) ho, Bytes.unpackBE_packBE (w := 4) hl]

theorem entryAt_eq (place : a.length = headerSize + x.sequence * entrySize)
    (hs : x.sequence < 2 ^ 64) (ho : x.offset < 2 ^ 64) (hl : x.length < 2 ^ 32)
    (digest : x.digest.length = 32) : entryAt (a ++ packEntry x ++ c) x.sequence = x := by
  have slice := Bytes.slice_middle a (packEntry x) c
  rw [length_packEntry digest, place] at slice
  rw [entryAt, slice, unpackEntry_packEntry hs ho hl]

theorem checkRecord_eq (place : a.length = o) (hs : s < 2 ^ 64) (bound : p.length ≤ MAX_RECORD_BYTES)
    (readable : Readable p) :
    checkRecord (a ++ packRecord s p ++ c) s ⟨s, o, p.length, Sha256.digest p⟩ = .ok () := by
  subst place
  have number : Bytes.slice (a ++ packRecord s p ++ c) a.length (a.length + 8) =
      Bytes.packBE 8 s := by
    have slice := Bytes.slice_middle a (Bytes.packBE 8 s) (Bytes.packBE 4 p.length ++ p ++ c)
    rw [Bytes.length_packBE] at slice
    rw [← slice, packRecord]
    simp only [List.append_assoc]
  have length : Bytes.slice (a ++ packRecord s p ++ c) (a.length + 8) (a.length + 12) =
      Bytes.packBE 4 p.length := by
    have slice := Bytes.slice_middle (a ++ Bytes.packBE 8 s) (Bytes.packBE 4 p.length) (p ++ c)
    rw [List.length_append, Bytes.length_packBE, Bytes.length_packBE] at slice
    rw [← slice, packRecord]
    simp only [List.append_assoc]
  have payload : Bytes.slice (a ++ packRecord s p ++ c) (a.length + recordHeaderSize)
      (a.length + recordHeaderSize + p.length) = p := by
    have slice := Bytes.slice_middle (a ++ Bytes.packBE 8 s ++ Bytes.packBE 4 p.length) p c
    rw [List.length_append, List.length_append, Bytes.length_packBE, Bytes.length_packBE] at slice
    simpa only [packRecord, List.append_assoc, recordHeaderSize, Nat.add_assoc, Nat.reduceAdd] using
      slice
  have small : p.length < 256 ^ 4 := lt_of_le_of_lt bound (by decide)
  obtain ⟨text, fields, decoded, loaded⟩ := readable
  simp only [checkRecord, number, length, Bytes.unpackBE_packBE (w := 8) hs,
    Bytes.unpackBE_packBE small, payload, decoded, Option.bind_some, loaded]
  rw [if_neg]
  simp

theorem scan_eq (hbp : a.length = o) (hbi : b.length = headerSize + s * entrySize)
    (header : headerSize ≤ o) (fits : Fits s o ps) (tail tail' : Bytes) :
    scan (a ++ records s ps ++ tail) (b ++ entries s o ps ++ tail') ps.length s o =
      .ok (s + ps.length, o + (records s ps).length, none) := by
  induction ps generalizing a b s o with
  | nil => rfl
  | cons p ps ih =>
    obtain ⟨⟨hs, ho, bound, readable⟩, fits⟩ := fits
    have small : p.length < 2 ^ 32 := lt_of_le_of_lt bound (by decide)
    have found := entryAt_eq (x := ⟨s, o, p.length, Sha256.digest p⟩) (a := b)
      (c := entries (s + 1) (o + recordHeaderSize + p.length) ps ++ tail') hbi hs ho small
      (Sha256.length_digest p)
    have checked := checkRecord_eq (c := records (s + 1) ps ++ tail) hbp hs bound readable
    have rest := ih (a := a ++ packRecord s p) (o := o + recordHeaderSize + p.length)
      (b := b ++ packEntry ⟨s, o, p.length, Sha256.digest p⟩) (s := s + 1)
      (by rw [List.length_append, length_packRecord, hbp, Nat.add_assoc])
      (by rw [List.length_append, length_packEntry (Sha256.length_digest p), hbi]; ring)
      (by omega) fits
    simp only [List.append_assoc] at found checked rest
    have long : ¬ (o < headerSize ∨ o + recordHeaderSize + p.length >
        (a ++ (records s (p :: ps) ++ tail)).length) := by
      rw [records, List.length_append, List.length_append, List.length_append, length_packRecord, hbp]
      omega
    rw [List.length_cons, scan]
    simp only [records, entries, List.append_assoc] at long ⊢
    rw [found]
    dsimp only
    rw [if_neg (by simp [bound]), if_neg long, checked]
    refine rest.trans ?_
    rw [List.length_append, length_packRecord, ← Nat.add_assoc, ← Nat.add_assoc, ← Nat.add_assoc,
      Nat.add_right_comm s]

/-! ## Files and what they hold -/

/-- A file is its header, a body and a tail that satisfies `ok`; while the body is empty it may also
be a proper part of the header. -/
inductive Logged (magic body : Bytes) (ok : Bytes → Prop) : Bytes → Prop
  | begun {b rest : Bytes} (empty : body = []) (part : fileHeader magic = b ++ rest)
    (proper : rest ≠ []) : Logged magic body ok b
  | headed {tail : Bytes} (h : ok tail) : Logged magic body ok (fileHeader magic ++ body ++ tail)

/-- The files hold the payloads, before whatever interrupted appends have left. -/
structure Consistent (files : LedgerFiles) (ps : List Bytes) : Prop where
  hbp : Logged HBP_MAGIC (records 0 ps) (fun _ => True) (files.hbp.getD [])
  hbi : Logged HBI_MAGIC (entries 0 headerSize ps) (fun tail => tail.length < entrySize)
    (files.hbi.getD [])
  fits : Fits 0 headerSize ps

/-- The files hold the payloads and nothing else. -/
def Holds (files : LedgerFiles) (ps : List Bytes) : Prop :=
  files.hbp = some (fileHeader HBP_MAGIC ++ records 0 ps) ∧
    files.hbi = some (fileHeader HBI_MAGIC ++ entries 0 headerSize ps)

/-- Both files have their complete header. -/
def Headed (files : LedgerFiles) : Prop :=
  (∃ b, files.hbp = some b ∧ b.take headerSize = fileHeader HBP_MAGIC) ∧
    ∃ b, files.hbi = some b ∧ b.take headerSize = fileHeader HBI_MAGIC

/-- The end of the record of the last index entry. -/
def indexedEnd (hbi : Bytes) : ℕ :=
  match (hbi.length - headerSize) / entrySize with
  | 0 => headerSize
  | n + 1 => (entryAt hbi n).offset + recordHeaderSize + (entryAt hbi n).length

/-- HBP has no bytes behind the record of the last index entry. -/
def NoOrphan (files : LedgerFiles) : Prop :=
  max headerSize (files.hbp.getD []).length = indexedEnd (files.hbi.getD [])

instance (files : LedgerFiles) : Decidable (NoOrphan files) := instDecidableEqNat _ _

instance (files : LedgerFiles) : Decidable (Headed files) :=
  decidable_of_iff
    (files.hbp.any (fun b => b.take headerSize = fileHeader HBP_MAGIC) = true ∧
      files.hbi.any (fun b => b.take headerSize = fileHeader HBI_MAGIC) = true)
    (by simp only [Headed, Option.any_eq_true, decide_eq_true_eq])

variable {magic body tail w : Bytes} {ok : Bytes → Prop} {files : LedgerFiles}

theorem length_fileHeader (size : magic.length = 9) : (fileHeader magic).length = headerSize := by
  simp [fileHeader, size, headerSize]

theorem Logged.ensure (h : Logged magic body ok b) (size : magic.length = 9) (okNil : ok [])
    (ensured : ensureHeader magic b = .ok w) :
    ∃ tail, ok tail ∧ b ++ w = fileHeader magic ++ body ++ tail ∧
      (w = [] ∨ b = [] ∧ body = [] ∧ w = fileHeader magic) := by
  unfold ensureHeader at ensured
  cases h with
  | @begun b rest empty part proper =>
    split_ifs at ensured with nil cut
    · cases ensured
      exact ⟨[], okNil, by rw [nil, empty, List.nil_append, List.append_nil, List.append_nil],
        .inr ⟨nil, empty, rfl⟩⟩
    · have lengths := congrArg List.length part
      have cut := congrArg List.length (not_not.1 cut)
      have := List.length_pos_iff.2 proper
      rw [length_fileHeader size, List.length_append] at lengths
      rw [length_fileHeader size, List.length_take] at cut
      omega
  | headed h =>
    split_ifs at ensured with nil cut
    · have lengths := congrArg List.length nil
      rw [List.length_append, List.length_append, length_fileHeader size] at lengths
      simp [headerSize] at lengths
    · cases ensured
      exact ⟨_, h, by rw [List.append_nil], .inl rfl⟩

theorem Logged.write (e : b ++ w = fileHeader magic ++ body ++ tail)
    (start : w = [] ∨ b = [] ∧ body = [] ∧ w = fileHeader magic) (x : Bytes) (n : ℕ)
    (grow : ok (tail ++ x.take (n - w.length))) :
    Logged magic body ok (b ++ (w ++ x).take n) := by
  rcases start with rfl | ⟨rfl, rfl, rfl⟩
  · rw [List.append_nil] at e
    rw [e, List.nil_append, List.append_assoc]
    exact .headed grow
  · have nil : tail = [] := by simpa using e
    subst nil
    rw [List.nil_append]
    rcases lt_or_ge n (fileHeader magic).length with short | long
    · rw [List.take_append_of_le_length (le_of_lt short)]
      refine .begun rfl (List.take_append_drop n _).symm fun nothing => ?_
      have := congrArg List.length nothing
      rw [List.length_drop, List.length_nil] at this
      omega
    · rw [List.take_append, List.take_of_length_le long]
      have headed : Logged magic [] _ (fileHeader magic ++ [] ++ _) := .headed grow
      rwa [List.append_nil, List.nil_append] at headed

/-! ## Appending to consistent files -/

theorem distinctKeys_optStr (x : Option PyStr) : (Json.optStr x).DistinctKeys := by
  cases x <;> trivial

theorem distinctItems_strs (l : List PyStr) : Json.DistinctItems (l.map .str) := by
  induction l with
  | nil => trivial
  | cons s l ih => exact ⟨trivial, ih⟩

theorem distinctKeys_record (e : LedgerEvent) : e.record.DistinctKeys := by
  refine ⟨?_, trivial, trivial, trivial, trivial, trivial, trivial, distinctKeys_optStr _, trivial,
    distinctKeys_optStr _, distinctKeys_optStr _, distinctKeys_optStr _, trivial,
    distinctItems_strs _, distinctItems_strs _, distinctKeys_optStr _, trivial, e.metadata.distinct,
    trivial, trivial⟩
  simp only [LedgerEvent.materialFields, List.map_cons, List.map_nil, List.cons_append,
    List.nil_append]
  decide +kernel

theorem payload_eq_ok (h : payload e = .ok b) : b.length ≤ MAX_RECORD_BYTES ∧ Readable b := by
  unfold payload at h
  split at h
  · cases h
  · next encoded =>
    split_ifs at h with large
    cases h
    exact ⟨not_lt.1 large, _, _, PyStr.decode_encode encoded,
      Json.loads_dumps _ (distinctKeys_record e)⟩

theorem append_eq (hp : payload e = .ok b) : append files e = ((plan files e b).outcome,
    written files (plan files e b) (plan files e b).hbp.length
      ((plan files e b).hbiHeader ++ (plan files e b).hbiEntry).length) := by
  unfold append
  rw [hp]

theorem append_of_error {x : StoreRaised} (hp : payload e = .error x) :
    append files e = (.error x, files) := by
  unfold append
  rw [hp]

theorem crash_eq (hp : payload e = .ok b) (n m : ℕ) :
    crash files e n m = written files (plan files e b) n m := by
  unfold crash
  rw [hp]

theorem crash_of_error {x : StoreRaised} (hp : payload e = .error x) (n m : ℕ) :
    crash files e n m = files := by
  unfold crash
  rw [hp]

/-- The whole write of an accepted append is on disk. -/
def AppendWrites.Complete (w : AppendWrites) (p q : ℕ) : Prop :=
  w.outcome.isOk = true ∧ w.hbp.length ≤ p ∧ (w.hbiHeader ++ w.hbiEntry).length ≤ q

theorem indexedEnd_eq (fits : Fits 0 headerSize ps) :
    indexedEnd (fileHeader HBI_MAGIC ++ entries 0 headerSize ps) =
      headerSize + (records 0 ps).length := by
  have size : (fileHeader HBI_MAGIC ++ entries 0 headerSize ps).length - headerSize =
      ps.length * entrySize := by
    rw [List.length_append, length_fileHeader rfl, length_entries, Nat.add_sub_cancel_left]
  rw [indexedEnd, size, Nat.mul_div_cancel _ (by decide)]
  rcases List.eq_nil_or_concat' ps with rfl | ⟨init, p, rfl⟩
  · rfl
  · rw [List.length_append, List.length_singleton]
    obtain ⟨-, ⟨hs, ho, bound, -⟩, -⟩ := fits_append.1 fits
    rw [Nat.zero_add] at hs
    have found := entryAt_eq (a := fileHeader HBI_MAGIC ++ entries 0 headerSize init) (c := [])
      (x := ⟨init.length, headerSize + (records 0 init).length, p.length, Sha256.digest p⟩)
      (by rw [List.length_append, length_fileHeader rfl, length_entries]) hs ho
      (lt_of_le_of_lt bound (by decide)) (Sha256.length_digest p)
    rw [List.append_nil] at found
    rw [entries_append, entries, entries, Nat.zero_add, ← List.append_assoc, List.append_nil,
      records_append, records, records, List.length_append, List.append_nil, length_packRecord]
    dsimp only
    rw [found]
    dsimp only
    omega

theorem plan_rejected (h : (plan files e b).outcome.isOk = false) :
    ((plan files e b).hbp = [] ∨ ∃ w x, ensureHeader HBP_MAGIC (files.hbp.getD []) = .ok w ∧
        (plan files e b).hbp = w ++ x) ∧
      ((plan files e b).hbiHeader = [] ∨
        ensureHeader HBI_MAGIC (files.hbi.getD []) = .ok (plan files e b).hbiHeader) ∧
      (plan files e b).hbiEntry = [] := by
  unfold plan writesOf at h ⊢
  split
  · exact ⟨.inl rfl, .inl rfl, rfl⟩
  · next w hw =>
    split
    · exact ⟨.inr ⟨w, [], hw, by rw [List.append_nil]⟩, .inl rfl, rfl⟩
    · next w' hw' =>
      rw [hw, hw'] at h
      dsimp only at h ⊢
      split_ifs at h ⊢
      · exact ⟨.inr ⟨w, [], hw, by rw [List.append_nil]⟩, .inr hw', rfl⟩
      · exact ⟨.inr ⟨w, [], hw, by rw [List.append_nil]⟩, .inr hw', rfl⟩
      · exact ⟨.inr ⟨w, [], hw, by rw [List.append_nil]⟩, .inr hw', rfl⟩
      · exact ⟨.inr ⟨w, _, hw, rfl⟩, .inr hw', rfl⟩
      · cases h

theorem plan_accepted (h : (plan files e b).outcome.isOk = true) :
    ∃ w w', ensureHeader HBP_MAGIC (files.hbp.getD []) = .ok w ∧ ensureHeader HBI_MAGIC (files.hbi.getD []) = .ok w' ∧
      ((files.hbi.getD [] ++ w').length - headerSize) % entrySize = 0 ∧
      e.sequence = ((files.hbi.getD [] ++ w').length - headerSize) / entrySize ∧ e.sequence < 2 ^ 64 ∧
      (files.hbp.getD [] ++ w).length < 2 ^ 64 ∧ (plan files e b).hbp = w ++ packRecord e.sequence b ∧
      (plan files e b).hbiHeader = w' ∧ (plan files e b).hbiEntry =
        packEntry ⟨e.sequence, (files.hbp.getD [] ++ w).length, b.length, Sha256.digest b⟩ := by
  unfold plan writesOf at h ⊢
  split at h
  · cases h
  · next w hw =>
    split at h
    · cases h
    · next w' hw' =>
      dsimp only at h
      split_ifs at h with whole sequence small place
      iterate 4 cases h
      refine ⟨w, w', hw, hw', not_not.1 whole, not_not.1 sequence, not_le.1 small,
        not_le.1 place, ?_⟩
      dsimp only
      rw [if_neg whole, if_neg sequence, if_neg small, if_neg place]
      exact ⟨rfl, rfl, rfl⟩

theorem Consistent.rejected (h : Consistent files ps) (n m : ℕ)
    (rejected : (plan files e b).outcome.isOk = false) :
    Consistent (written files (plan files e b) n m) ps := by
  obtain ⟨hbp, hbi, entry⟩ := plan_rejected rejected
  generalize plan files e b = w at hbp hbi entry
  refine ⟨?_, ?_, h.fits⟩
  · rw [LedgerStore.written]
    rcases hbp with nothing | ⟨header, x, ensured, same⟩
    · rw [nothing, List.take_nil, Option.getD_some, List.append_nil]
      exact h.hbp
    · obtain ⟨tail, -, e, start⟩ := h.hbp.ensure rfl trivial ensured
      rw [same]
      exact Logged.write e start x n trivial
  · rw [LedgerStore.written, entry, ite_self]
    rcases hbi with nothing | ensured
    · rw [nothing, List.append_nil, List.take_nil, Option.getD_some, List.append_nil]
      exact h.hbi
    · obtain ⟨tail, short, e, start⟩ := h.hbi.ensure rfl (by decide) ensured
      exact Logged.write e start [] m (by rwa [List.take_nil, List.append_nil])

theorem Consistent.place (h : Consistent files ps) {w w' : Bytes}
    (hbp : ensureHeader HBP_MAGIC (files.hbp.getD []) = .ok w)
    (hbi : ensureHeader HBI_MAGIC (files.hbi.getD []) = .ok w')
    (whole : ((files.hbi.getD [] ++ w').length - headerSize) % entrySize = 0) :
    files.hbi.getD [] ++ w' = fileHeader HBI_MAGIC ++ entries 0 headerSize ps ++ [] ∧
      ((files.hbi.getD [] ++ w').length - headerSize) / entrySize = ps.length ∧
      (NoOrphan files →
        files.hbp.getD [] ++ w = fileHeader HBP_MAGIC ++ records 0 ps ++ []) := by
  obtain ⟨tail, short, e, start⟩ := h.hbi.ensure rfl (by decide) hbi
  obtain ⟨tail', -, e', start'⟩ := h.hbp.ensure rfl trivial hbp
  have size : (files.hbi.getD [] ++ w').length - headerSize =
      ps.length * entrySize + tail.length := by
    rw [e, List.length_append, List.length_append, length_fileHeader rfl, length_entries,
      Nat.add_assoc, Nat.add_sub_cancel_left]
  have nil : tail = [] := by
    rw [size, Nat.mul_add_mod_self_right, Nat.mod_eq_of_lt short] at whole
    exact List.length_eq_zero_iff.1 whole
  subst nil
  refine ⟨e, ?_, fun noOrphan => ?_⟩
  · rw [size, List.length_nil, Nat.add_zero, Nat.mul_div_cancel _ (by decide)]
  · have last : indexedEnd (files.hbi.getD []) = headerSize + (records 0 ps).length := by
      rcases start with rfl | ⟨nothing, empty, -⟩
      · rw [List.append_nil, List.append_nil] at e
        rw [e, indexedEnd_eq h.fits]
      · have none : ps = [] := by
          have := congrArg List.length empty
          rw [length_entries, List.length_nil] at this
          simpa [entrySize] using this
        rw [nothing, none]
        rfl
    have ends : max headerSize (files.hbp.getD []).length = headerSize + (records 0 ps).length :=
      noOrphan.trans last
    have nil' : tail' = [] := by
      rcases start' with rfl | ⟨nothing, empty, rfl⟩
      · have lengths := congrArg List.length e'
        rw [List.append_nil, List.length_append, List.length_append, length_fileHeader rfl] at lengths
        rw [lengths] at ends
        have : tail'.length = 0 := by omega
        exact List.length_eq_zero_iff.1 this
      · rw [nothing, empty] at e'
        simpa using e'
    rw [e', nil']

theorem Consistent.complete (h : Consistent files ps) (hp : payload e = .ok b) {n m : ℕ}
    (complete : (plan files e b).Complete n m)
    (noOrphan : NoOrphan files) :
    Consistent (written files (plan files e b) n m)
      (ps ++ [b]) := by
  obtain ⟨accepted, long, long'⟩ := complete
  obtain ⟨w, w', ensured, ensured', whole, sequence, small, place, hbp, header, entry⟩ :=
    plan_accepted accepted
  obtain ⟨hbi, count, clean⟩ := h.place ensured ensured' whole
  rw [count] at sequence
  have old := clean noOrphan
  rw [List.append_nil] at old hbi
  have offset : (files.hbp.getD [] ++ w).length = headerSize + (records 0 ps).length := by
    rw [old, List.length_append, length_fileHeader rfl]
  obtain ⟨bound, readable⟩ := payload_eq_ok hp
  generalize plan files e b = v at *
  rw [offset] at entry place
  rw [sequence] at entry small hbp
  refine ⟨?_, ?_, fits_append.2 ⟨h.fits, ⟨by rwa [Nat.zero_add], place, bound, readable⟩, trivial⟩⟩
  · have headed : Logged HBP_MAGIC (records 0 (ps ++ [b])) (fun _ => True)
        (fileHeader HBP_MAGIC ++ records 0 (ps ++ [b]) ++ []) := .headed trivial
    rw [List.append_nil] at headed
    rw [LedgerStore.written, Option.getD_some, List.take_of_length_le long, hbp,
      ← List.append_assoc, old, List.append_assoc, ← records_push]
    exact headed
  · have headed : Logged HBI_MAGIC (entries 0 headerSize (ps ++ [b]))
        (fun tail => tail.length < entrySize)
        (fileHeader HBI_MAGIC ++ entries 0 headerSize (ps ++ [b]) ++ []) :=
      .headed (by decide)
    rw [List.append_nil] at headed
    rw [LedgerStore.written, Option.getD_some, if_pos long, List.take_of_length_le long', header,
      entry, ← List.append_assoc, hbi, List.append_assoc, ← entries_push]
    exact headed

theorem Consistent.interrupted (h : Consistent files ps) {n m : ℕ}
    (accepted : (plan files e b).outcome.isOk = true)
    (cut : ¬ (plan files e b).Complete n m) :
    Consistent (written files (plan files e b) n m) ps := by
  obtain ⟨w, w', ensured, ensured', whole, -, -, -, hbp, header, entry⟩ := plan_accepted accepted
  obtain ⟨hbi, -⟩ := h.place ensured ensured' whole
  obtain ⟨tail, -, e₁, start⟩ := h.hbp.ensure rfl trivial ensured
  obtain ⟨-, -, -, start'⟩ := h.hbi.ensure rfl (by decide) ensured'
  have entryLength : (plan files e b).hbiEntry.length =
      entrySize := by
    rw [entry]
    exact length_packEntry (Sha256.length_digest b)
  rw [AppendWrites.Complete, List.length_append, header, entryLength] at cut
  refine ⟨?_, ?_, h.fits⟩
  · rw [LedgerStore.written, hbp]
    exact Logged.write e₁ start _ n trivial
  · rw [LedgerStore.written, header]
    refine Logged.write hbi start' _ m ?_
    rw [List.nil_append, List.length_take]
    split_ifs with long
    · rw [entryLength]
      have : ¬ w'.length + entrySize ≤ m := fun long' => cut ⟨accepted, long, long'⟩
      have : 0 < entrySize := by decide
      omega
    · exact lt_of_le_of_lt (min_le_right _ _) (by decide)

/-! ## Recovering consistent files -/

theorem Logged.headed_of_take (h : Logged magic body ok b) (size : magic.length = 9)
    (header : b.take headerSize = fileHeader magic) :
    ∃ tail, ok tail ∧ b = fileHeader magic ++ body ++ tail := by
  cases h with
  | begun empty part proper =>
    have lengths := congrArg List.length part
    have cut := congrArg List.length header
    have := List.length_pos_iff.2 proper
    rw [length_fileHeader size, List.length_append] at lengths
    rw [length_fileHeader size, List.length_take] at cut
    omega
  | headed h => exact ⟨_, h, rfl⟩

theorem recoverRead_eq {hbp hbi : Bytes} {last : ℕ}
    (headHbp : hbp.take headerSize = fileHeader HBP_MAGIC)
    (headHbi : hbi.take headerSize = fileHeader HBI_MAGIC)
    (scanned : scan hbp hbi ((hbi.length - headerSize) / entrySize) 0 headerSize =
      .ok (n, last, none)) :
    ∃ receipt, recoverRead hbp hbi = .ok (receipt, ⟨some (hbp.take last),
      some (hbi.take (headerSize + n * entrySize))⟩) ∧ receipt.events = n := by
  have first : checkHeader HBP_MAGIC hbp "HBP header is invalid" = .ok () :=
    if_neg (not_not.2 headHbp)
  have second : checkHeader HBI_MAGIC hbi "HBI header is invalid" = .ok () :=
    if_neg (not_not.2 headHbi)
  refine ⟨_, bind_ok.2 ⟨(), first, bind_ok.2 ⟨(), second,
    bind_ok.2 ⟨_, scanned, congrArg Except.ok (Prod.ext rfl ?_)⟩⟩⟩, rfl⟩
  dsimp only
  split_ifs with cut
  · rfl
  · rw [not_or, not_not, not_not] at cut
    rw [List.take_of_length_le (Nat.le_of_sub_eq_zero cut.2),
      List.take_of_length_le (Nat.le_of_sub_eq_zero cut.1)]

theorem Consistent.recover (h : Consistent files ps) (headed : Headed files) :
    ∃ receipt files', recoverTail files = (.ok receipt, files') ∧ receipt.events = ps.length ∧
      Holds files' ps := by
  obtain ⟨⟨hbp, openHbp, headHbp⟩, hbi, openHbi, headHbi⟩ := headed
  have loggedHbp := h.hbp
  have loggedHbi := h.hbi
  rw [openHbp, Option.getD_some] at loggedHbp
  rw [openHbi, Option.getD_some] at loggedHbi
  obtain ⟨tail, -, contents⟩ := loggedHbp.headed_of_take rfl headHbp
  obtain ⟨tail', short, contents'⟩ := loggedHbi.headed_of_take rfl headHbi
  have count : (hbi.length - headerSize) / entrySize = ps.length := by
    rw [contents', List.length_append, List.length_append, length_fileHeader rfl, length_entries,
      Nat.add_assoc, Nat.add_sub_cancel_left, Nat.mul_comm, Nat.mul_add_div (by decide),
      Nat.div_eq_of_lt short, Nat.add_zero]
  have scanned := scan_eq (a := fileHeader HBP_MAGIC) (b := fileHeader HBI_MAGIC) (s := 0)
    (length_fileHeader rfl) (length_fileHeader rfl) le_rfl h.fits tail tail'
  rw [← contents, ← contents', ← count] at scanned
  obtain ⟨receipt, read, events⟩ := recoverRead_eq headHbp headHbi scanned
  rw [count, Nat.zero_add] at events
  rw [count, Nat.zero_add, contents, contents',
    List.take_left' (by rw [List.length_append, length_fileHeader rfl]),
    List.take_left' (by rw [List.length_append, length_fileHeader rfl, length_entries]),
    ← contents, ← contents'] at read
  refine ⟨receipt, ⟨some (fileHeader HBP_MAGIC ++ records 0 ps),
    some (fileHeader HBI_MAGIC ++ entries 0 headerSize ps)⟩, ?_, events, rfl, rfl⟩
  simp only [recoverTail, openHbp, openHbi, read]

end LedgerStore

/-! ## Runs -/

namespace StoreState

open LedgerStore

variable {s : StoreState} {e : LedgerEvent} {n m : ℕ} {b : Bytes}

/-- The whole write of an append reaches the disk: the append passes its checks, and a crash leaves at
least the bytes that it writes. -/
def Writes (s : StoreState) (e : LedgerEvent) (n m : ℕ) : Prop :=
  ∃ b, payload e = .ok b ∧
    (plan s.files e b).Complete n m

instance (s : StoreState) (e : LedgerEvent) (n m : ℕ) : Decidable (s.Writes e n m) :=
  match h : payload e with
  | .error x => isFalse fun ⟨_, hb, _⟩ => by rw [h] at hb; cases hb
  | .ok b => decidable_of_iff
      ((plan s.files e b).outcome.isOk = true ∧
        (plan s.files e b).hbp.length ≤ n ∧
        ((plan s.files e b).hbiHeader ++
          (plan s.files e b).hbiEntry).length ≤ m)
      ⟨fun c => ⟨b, h, c⟩, fun ⟨_, hb, c⟩ => by rw [h] at hb; cases hb; exact c⟩

def step (s : StoreState) : StoreCall → StoreState
  | .append e =>
    { files := (append s.files e).2
      held := if (append s.files e).1.isOk then s.held ++ [e] else s.held }
  | .crash e n m =>
    { files := crash s.files e n m, held := if s.Writes e n m then s.held ++ [e] else s.held }
  | .recover => { s with files := (recoverTail s.files).2 }

/-- The payload that the store holds for an event. -/
def payloadBytes (e : LedgerEvent) : Bytes := (payload e).toOption.getD []

def payloads (s : StoreState) : List Bytes := s.held.map payloadBytes

/-- A recovery succeeds, and leaves the files with exactly the events held. -/
def Recovers (s : StoreState) : StoreCall → Prop
  | .recover => ∃ receipt files, recoverTail s.files = (.ok receipt, files) ∧
      receipt.events = s.held.length ∧ Holds files s.payloads
  | _ => True

/-- No index entry is written while HBP has bytes behind the record of the last one, and only files
with complete headers are recovered. -/
def Admitted (s : StoreState) : StoreCall → Prop
  | .append e => (append s.files e).1.isOk = true → NoOrphan s.files
  | .crash e n m => s.Writes e n m → NoOrphan s.files
  | .recover => Headed s.files

/-- The files are consistent with the events held. -/
def Invariant (s : StoreState) : Prop := Consistent s.files s.payloads

theorem payloadBytes_eq (h : payload e = .ok b) : payloadBytes e = b := by
  rw [payloadBytes, h]
  rfl

theorem payloads_push (files : LedgerFiles) (h : payload e = .ok b) :
    payloads ⟨files, s.held ++ [e]⟩ = s.payloads ++ [b] := by
  rw [payloads, payloads, List.map_append, List.map_singleton, payloadBytes_eq h]

theorem Invariant.written (h : s.Invariant) (hp : payload e = .ok b) (n m : ℕ)
    (noOrphan : (plan s.files e b).Complete n m →
      NoOrphan s.files) (held : List LedgerEvent)
    (grown : (plan s.files e b).Complete n m →
      held = s.held ++ [e])
    (kept : ¬ (plan s.files e b).Complete n m →
      held = s.held) :
    Invariant ⟨LedgerStore.written s.files (plan s.files e b) n m, held⟩ := by
  by_cases complete : (plan s.files e b).Complete n m
  · rw [grown complete, Invariant, payloads_push _ hp]
    exact Consistent.complete h hp complete (noOrphan complete)
  · rw [kept complete]
    cases accepted : (plan s.files e b).outcome.isOk with
    | true => exact Consistent.interrupted h accepted complete
    | false => exact Consistent.rejected h n m accepted

theorem Invariant.step (h : s.Invariant) (call : StoreCall) (admitted : s.Admitted call) :
    (s.step call).Invariant := by
  cases call with
  | append e =>
    rw [Admitted] at admitted
    rw [StoreState.step]
    cases hp : payload e with
    | error x =>
      rw [append_of_error hp]
      exact h
    | ok b =>
      have complete : (plan s.files e b).outcome.isOk = true ↔
          (plan s.files e b).Complete
            (plan s.files e b).hbp.length
            ((plan s.files e b).hbiHeader ++
              (plan s.files e b).hbiEntry).length :=
        ⟨fun accepted => ⟨accepted, le_rfl, le_rfl⟩, fun complete => complete.1⟩
      rw [append_eq hp] at admitted ⊢
      exact h.written hp _ _ (fun whole => admitted (complete.2 whole)) _
        (fun whole => if_pos (complete.2 whole)) fun cut => if_neg fun accepted => cut (complete.1 accepted)
  | crash e n m =>
    rw [Admitted] at admitted
    rw [StoreState.step]
    cases hp : payload e with
    | error x =>
      have nothing : ¬ s.Writes e n m := by
        rintro ⟨b, hb, -⟩
        rw [hp] at hb
        cases hb
      rw [crash_of_error hp, if_neg nothing]
      exact h
    | ok b =>
      have complete : s.Writes e n m ↔
          (plan s.files e b).Complete n m := by
        constructor
        · rintro ⟨b', hb', whole⟩
          rw [hp] at hb'
          cases hb'
          exact whole
        · exact fun whole => ⟨b, hp, whole⟩
      rw [crash_eq hp]
      exact h.written hp n m (fun whole => admitted (complete.2 whole)) _
        (fun whole => if_pos (complete.2 whole)) fun cut => if_neg fun whole => cut (complete.1 whole)
  | recover =>
    obtain ⟨receipt, files', recovered, -, hbp, hbi⟩ := Consistent.recover h admitted
    rw [StoreState.step, recovered, Invariant, payloads]
    have headedHbp : Logged HBP_MAGIC (records 0 s.payloads) (fun _ => True)
        (fileHeader HBP_MAGIC ++ records 0 s.payloads ++ []) := .headed trivial
    have headedHbi : Logged HBI_MAGIC (entries 0 headerSize s.payloads)
        (fun tail => tail.length < entrySize)
        (fileHeader HBI_MAGIC ++ entries 0 headerSize s.payloads ++ []) := .headed (by decide)
    rw [List.append_nil] at headedHbp headedHbi
    exact ⟨by rw [hbp]; exact headedHbp, by rw [hbi]; exact headedHbi, h.fits⟩

def new : StoreState := ⟨⟨none, none⟩, []⟩

theorem new_invariant : new.Invariant where
  hbp := .begun rfl rfl (by decide)
  hbi := .begun rfl rfl (by decide)
  fits := trivial

/-- In a run of admitted calls every recovery succeeds and leaves exactly the events held. -/
theorem along_recovers {calls : List StoreCall} (admitted : Machine.Along step Admitted new calls) :
    Machine.Along step Recovers new calls := by
  refine admitted.imp_of_invariant new_invariant (fun _ call inv admitted => inv.step call admitted)
    fun s call inv admitted => ?_
  cases call with
  | append => trivial
  | crash => trivial
  | recover =>
    obtain ⟨receipt, files', recovered, events, holds⟩ := Consistent.recover inv admitted
    refine ⟨receipt, files', recovered, ?_, holds⟩
    rw [events, payloads, List.length_map]

/-- The event with the number; its texts do not matter to the store. -/
def eventAt (sequence : ℕ) : LedgerEvent where
  sequence := sequence
  eventType := .taskAccepted
  eventId := "id"
  taskId := "task"
  attemptId := "a1"
  candidateId := none
  repository := "repo"
  sourceCommit := none
  baseGeneration := none
  overlayGeneration := none
  producer := "loop"
  artifactHandles := []
  artifactDigests := []
  payloadDigest := none
  prevEventHash := ZERO_HASH
  eventHash := "hash"
  metadata := .empty

/-- A run that recovers from an append that was cut short. -/
theorem along_recovers_interrupted :
    Machine.Along step Recovers new
      [.append (eventAt 0), .crash (eventAt 1) 5 0, .recover] := by
  have headed : Headed (Machine.run step new [.append (eventAt 0), .crash (eventAt 1) 5 0]).files := by
    decide +kernel
  refine along_recovers ⟨fun _ => ?_, fun _ => ?_, headed, trivial⟩ <;> decide +kernel

/-- A crash leaves one byte of a record; the next append writes its record behind that byte, and the
recovery after it fails. -/
theorem not_along_recovers_orphan :
    ¬ Machine.Along step Recovers new
      [.crash (eventAt 0) 14 13, .append (eventAt 0), .recover] := by
  intro along
  obtain ⟨receipt, files, recovered, -⟩ := along.2.2.1
  have failed : (recoverTail (step (step new (.crash (eventAt 0) 14 13))
    (.append (eventAt 0))).files).1.isOk = false := by decide +kernel
  rw [recovered] at failed
  cases failed

end StoreState

end SimplicioFast
