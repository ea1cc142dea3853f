import SimplicioFast.Ledger.Delivery

/-!
# The ledger store

A store is two append-only files: HBP holds the records of the events, and HBI an entry with the
place and the digest of each record.  `append` writes and syncs the record before it writes the
entry; `recover_tail` cuts both files back to the records that the index covers.

An append may be interrupted.  The bytes that it was to write to HBP, and the header that it was to
write to HBI, may then be on disk in part, and the index entry only behind a complete record.
-/

namespace SimplicioFast

/-- What the store raises. -/
inductive StoreRaised
  | storeError (reasonCode message : PyStr)
  | unicodeEncodeError
  | structError
deriving DecidableEq

/-- The two files; a missing file is `none`. -/
structure LedgerFiles where
  hbp : Option Bytes
  hbi : Option Bytes

def HBP_MAGIC : Bytes := PyStr.asciiBytes "SFASTHBP1"

def HBI_MAGIC : Bytes := PyStr.asciiBytes "SFASTHBI1"

def MAX_RECORD_BYTES : ℕ := 16 * 1024 * 1024

namespace LedgerStore

/-! ## The formats -/

/-- `_FILE_HEADER.pack(magic, 1)`. -/
def fileHeader (magic : Bytes) : Bytes := magic ++ Bytes.packBE 4 1

/-- `_FILE_HEADER.size`. -/
def headerSize : ℕ := 13

/-- `_RECORD_HEADER.size`. -/
def recordHeaderSize : ℕ := 12

/-- `_INDEX_ENTRY.size`. -/
def entrySize : ℕ := 52

/-- A record: its header and the payload. -/
def packRecord (sequence : ℕ) (payload : Bytes) : Bytes :=
  Bytes.packBE 8 sequence ++ Bytes.packBE 4 payload.length ++ payload

/-- An entry of the index. -/
structure IndexEntry where
  sequence : ℕ
  offset : ℕ
  length : ℕ
  digest : Bytes

/-- `_INDEX_ENTRY.pack`. -/
def packEntry (e : IndexEntry) : Bytes :=
  Bytes.packBE 8 e.sequence ++ (Bytes.packBE 8 e.offset ++ (Bytes.packBE 4 e.length ++ e.digest))

/-- `_INDEX_ENTRY.unpack`. -/
def unpackEntry (b : Bytes) : IndexEntry where
  sequence := Bytes.unpackBE (b.take 8)
  offset := Bytes.unpackBE ((b.drop 8).take 8)
  length := Bytes.unpackBE ((b.drop 16).take 4)
  digest := b.drop 20

/-- The entry of the index at a position. -/
def entryAt (hbi : Bytes) (sequence : ℕ) : IndexEntry :=
  unpackEntry (Bytes.slice hbi (headerSize + sequence * entrySize)
    (headerSize + sequence * entrySize + entrySize))

/-! ## Appending -/

def payload (e : LedgerEvent) : Except StoreRaised Bytes :=
  match (e.record.dumps false).encode with
  | none => .error .unicodeEncodeError
  | some b =>
    if b.length > MAX_RECORD_BYTES then
      .error (.storeError "record_too_large" "ledger record exceeds bounded store size")
    else .ok b

/-- `_ensure_header`: the header that it writes, if any. -/
def ensureHeader (magic file : Bytes) : Except StoreRaised Bytes :=
  if file = [] then .ok (fileHeader magic)
  else if file.take headerSize ≠ fileHeader magic then
    .error (.storeError "invalid_header" "ledger store header is invalid")
  else .ok []

/-- What `append` returns. -/
structure AppendReceipt where
  sequence : ℕ
  offset : ℕ
  length : ℕ
  payloadSha256 : List Char

/-- What a call of `append` is to write, and how it ends. -/
structure AppendWrites where
  hbp : Bytes := []
  hbiHeader : Bytes := []
  hbiEntry : Bytes := []
  outcome : Except StoreRaised AppendReceipt

/-- What `append` writes once the files are open. -/
def writesOf (e : LedgerEvent) (payload hbp hbi : Bytes) : AppendWrites :=
  match ensureHeader HBP_MAGIC hbp with
  | .error x => { outcome := .error x }
  | .ok hbpHeader => match ensureHeader HBI_MAGIC hbi with
    | .error x => { hbp := hbpHeader, outcome := .error x }
    | .ok hbiHeader =>
      let indexSize := (hbi ++ hbiHeader).length - headerSize
      let offset := (hbp ++ hbpHeader).length
      let digest := Sha256.digest payload
      if indexSize % entrySize ≠ 0 then
        { hbp := hbpHeader, hbiHeader
          outcome := .error (.storeError "partial_index" "HBI tail is partial") }
      else if e.sequence ≠ indexSize / entrySize then
        { hbp := hbpHeader, hbiHeader
          outcome :=
            .error (.storeError "sequence_mismatch" "event sequence does not follow HBI") }
      else if 2 ^ 64 ≤ e.sequence then
        { hbp := hbpHeader, hbiHeader, outcome := .error .structError }
      else if 2 ^ 64 ≤ offset then
        { hbp := hbpHeader ++ packRecord e.sequence payload, hbiHeader
          outcome := .error .structError }
      else
        { hbp := hbpHeader ++ packRecord e.sequence payload, hbiHeader
          hbiEntry := packEntry ⟨e.sequence, offset, payload.length, digest⟩
          outcome := .ok ⟨e.sequence, offset + recordHeaderSize, payload.length,
            Bytes.hex digest⟩ }

/-- The files after the first `p` bytes for HBP and the first `q` bytes for HBI have been written. -/
def written (files : LedgerFiles) (w : AppendWrites) (p q : ℕ) : LedgerFiles where
  hbp := some (files.hbp.getD [] ++ w.hbp.take p)
  hbi := some (files.hbi.getD [] ++
    (w.hbiHeader ++ if w.hbp.length ≤ p then w.hbiEntry else []).take q)

/-- What `append` is to write to the files. -/
def plan (files : LedgerFiles) (e : LedgerEvent) (payload : Bytes) : AppendWrites :=
  writesOf e payload (files.hbp.getD []) (files.hbi.getD [])

/-- `append`, with the files that it leaves. -/
def append (files : LedgerFiles) (e : LedgerEvent) :
    Except StoreRaised AppendReceipt × LedgerFiles :=
  match payload e with
  | .error x => (.error x, files)
  | .ok b =>
    let w := plan files e b
    (w.outcome, written files w w.hbp.length (w.hbiHeader ++ w.hbiEntry).length)

/-- The files after an `append` that a crash has cut short. -/
def crash (files : LedgerFiles) (e : LedgerEvent) (p q : ℕ) : LedgerFiles :=
  match payload e with
  | .error _ => files
  | .ok b => written files (plan files e b) p q

/-! ## Recovering -/

/-- What `recover_tail` returns. -/
structure RecoverReceipt where
  status : PyStr
  events : ℕ
  truncatedHbpBytes : ℕ
  truncatedHbiBytes : ℕ
  reasonCode : PyStr

/-- The check of the record that an entry stands for. -/
def checkRecord (hbp : Bytes) (sequence : ℕ) (e : IndexEntry) : Except StoreRaised Unit :=
  let recordSequence := Bytes.unpackBE (Bytes.slice hbp e.offset (e.offset + 8))
  let recordLength := Bytes.unpackBE (Bytes.slice hbp (e.offset + 8) (e.offset + 12))
  let start := e.offset + recordHeaderSize
  let payload := Bytes.slice hbp start (start + recordLength)
  if recordSequence ≠ sequence ∨ recordLength ≠ e.length ∨ Sha256.digest payload ≠ e.digest then
    .error (.storeError "payload_digest_mismatch" "HBP payload does not match HBI")
  else match (PyStr.decode payload).bind Json.loads with
    | none => .error (.storeError "invalid_record" "HBP payload is not valid JSON")
    | some (.obj _) => .ok ()
    | some _ => .error (.storeError "invalid_record" "HBP record must be an object")

/-- The loop of `recover_tail` over the complete entries of the index: the number of valid events,
the end of their records, and whether an entry leads outside HBP. -/
def scan (hbp hbi : Bytes) : (remaining sequence validEnd : ℕ) →
    Except StoreRaised (ℕ × ℕ × Option PyStr)
  | 0, sequence, validEnd => .ok (sequence, validEnd, none)
  | remaining + 1, sequence, validEnd =>
    let e := entryAt hbi sequence
    if e.sequence ≠ sequence ∨ e.length > MAX_RECORD_BYTES ∨ e.offset ≠ validEnd then
      .error (.storeError "index_mismatch" "HBI prefix is not contiguous")
    else if e.offset < headerSize ∨ e.offset + recordHeaderSize + e.length > hbp.length then
      .ok (sequence, validEnd, some "body_out_of_bounds")
    else do
      checkRecord hbp sequence e
      scan hbp hbi remaining (sequence + 1) (e.offset + recordHeaderSize + e.length)

/-- The check of a file header in `recover_tail`. -/
def checkHeader (magic file : Bytes) (text : PyStr) : Except StoreRaised Unit :=
  if file.take headerSize ≠ fileHeader magic then .error (.storeError "invalid_header" text)
  else .ok ()

/-- `recover_tail` after the files have been read. -/
def recoverRead (hbp hbi : Bytes) : Except StoreRaised (RecoverReceipt × LedgerFiles) := do
  checkHeader HBP_MAGIC hbp "HBP header is invalid"
  checkHeader HBI_MAGIC hbi "HBI header is invalid"
  let indexBody := hbi.length - headerSize
  let (validEvents, validEnd, reason) ← scan hbp hbi (indexBody / entrySize) 0 headerSize
  let reason : Option PyStr :=
    if indexBody % entrySize ≠ 0 ∧ reason = none then some ↑"partial_index" else reason
  let targetHbi := headerSize + validEvents * entrySize
  let truncatedHbi := hbi.length - targetHbi
  let truncatedHbp := hbp.length - validEnd
  let truncated := truncatedHbi ≠ 0 ∨ truncatedHbp ≠ 0
  let reason := if reason = none ∧ truncatedHbp ≠ 0 then some ↑"orphan_hbp_tail" else reason
  return (⟨if truncated then "recovered" else "valid", validEvents, truncatedHbp, truncatedHbi,
      reason.getD "already_consistent"⟩,
    if truncated then ⟨some (hbp.take validEnd), some (hbi.take targetHbi)⟩
    else ⟨some hbp, some hbi⟩)

/-- `recover_tail`, with the files that it leaves. -/
def recoverTail (files : LedgerFiles) : Except StoreRaised RecoverReceipt × LedgerFiles :=
  match files.hbp, files.hbi with
  | some hbp, some hbi => match recoverRead hbp hbi with
    | .ok (receipt, files) => (.ok receipt, files)
    | .error x => (.error x, files)
  | _, _ =>
    (.error (.storeError "missing_store" "HBP and HBI are required for recovery"), files)

end LedgerStore

end SimplicioFast
