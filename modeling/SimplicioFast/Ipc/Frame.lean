import SimplicioFast.Lib.JsonParse
import SimplicioFast.Lib.Machine
import SimplicioFast.Lib.Sha256

/-!
# Frames of the IPC transport

A frame is a magic, the lengths of its metadata and of its payload, the metadata as canonical JSON, and the payload.
`decodeFrame` checks all of it, and it undoes `IpcFrame.encode` (`decodeFrame_encode`).
-/

namespace SimplicioFast

namespace Ipc

/-- The exceptions of this module. -/
inductive Raised
  | ipcFrameError (reasonCode message : PyStr)
  | valueError (message : PyStr)
  | structError
  | unicodeEncodeError
  | typeError
  | recursionError
deriving DecidableEq

def SCHEMA : PyStr := "simplicio.fast.ipc/v1"

def MAGIC : Bytes := PyStr.asciiBytes "SFASTIPC"

/-- `HEADER.size`. -/
def headerSize : ℕ := 16

def MAX_HEADER_BYTES : ℕ := 4 * 1024

def MAX_PAYLOAD_BYTES : ℕ := 1024 * 1024

def MAX_FRAME_BYTES : ℕ := headerSize + MAX_HEADER_BYTES + MAX_PAYLOAD_BYTES

def METADATA_KEYS : List PyStr := ["schema", "request_id", "operation", "generation", "payload_sha256"]

/-- `if not condition: raise`. -/
def require (condition : Bool) (x : Raised) : Except Raised Unit := if condition then .ok () else .error x

/-- `raise IpcFrameError`, unless the condition holds. -/
def check (condition : Bool) (reasonCode message : PyStr) : Except Raised Unit :=
  require condition (.ipcFrameError reasonCode message)

/-- The limits of a frame. -/
structure FrameLimits where
  maxHeaderBytes : ℤ := MAX_HEADER_BYTES
  maxPayloadBytes : ℤ := MAX_PAYLOAD_BYTES
  maxFrameBytes : ℤ := MAX_FRAME_BYTES

def positiveLimits (limits : FrameLimits) : Except Raised Unit :=
  require (1 ≤ limits.maxHeaderBytes && 1 ≤ limits.maxPayloadBytes && 1 ≤ limits.maxFrameBytes)
    (.valueError "frame limits must be positive integers")

/-- The error of `_text`. -/
def textError (field : PyStr) (limit : ℕ) : Raised :=
  .ipcFrameError "invalid_metadata"
    (field ++ (" must be non-empty and <= " : PyStr) ++ Json.writeInt limit ++ (" bytes" : PyStr))

def text (value : Option Json) (field : PyStr) (limit : ℕ) : Except Raised PyStr :=
  match value with
  | some (.str s) =>
    if s = [] then .error (textError field limit)
    else match s.encode with
      | none => .error .unicodeEncodeError
      | some encoded => if limit < encoded.length then .error (textError field limit) else .ok s
  | _ => .error (textError field limit)

/-! ## Frames -/

/-- The fields of `IpcFrame`. -/
structure FrameFields where
  requestId : PyStr
  operation : PyStr
  generation : PyStr
  payload : Bytes
deriving DecidableEq

def FrameFields.postInit (f : FrameFields) : Except Raised Unit := do
  let _ ← text (some (.str f.requestId)) "request_id" 128
  let _ ← text (some (.str f.operation)) "operation" 128
  let _ ← text (some (.str f.generation)) "generation" 128
  return ()

/-- `IpcFrame`: fields that the constructor accepts. -/
structure IpcFrame extends FrameFields where
  valid : toFrameFields.postInit = .ok ()
deriving DecidableEq

/-- The constructor of `IpcFrame`. -/
def IpcFrame.make (f : FrameFields) : Except Raised IpcFrame :=
  match h : f.postInit with
  | .ok () => .ok ⟨f, h⟩
  | .error x => .error x

def payloadSha256 (payload : Bytes) : PyStr := PyStr.ofChars (Sha256.hexdigest payload)

def FrameFields.metadata (f : FrameFields) : Json :=
  .obj [("generation", .str f.generation), ("operation", .str f.operation),
    ("payload_sha256", .str (payloadSha256 f.payload)), ("request_id", .str f.requestId), ("schema", .str SCHEMA)]

/-- `HEADER.pack`. -/
def packHeader (headerLength payloadLength : ℕ) : Except Raised Bytes := do
  require (headerLength < 2 ^ 32 && payloadLength < 2 ^ 32) .structError
  return MAGIC ++ Bytes.packBE 4 headerLength ++ Bytes.packBE 4 payloadLength

/-- `str.encode("utf-8")`. -/
def encodeText (s : PyStr) : Except Raised Bytes :=
  match s.encode with
  | none => .error .unicodeEncodeError
  | some b => .ok b

def IpcFrame.encode (f : IpcFrame) (limits : FrameLimits) : Except Raised Bytes := do
  positiveLimits limits
  check (f.payload.length ≤ limits.maxPayloadBytes) "payload_too_large" "payload exceeds configured bound"
  let header ← encodeText (f.metadata.dumps false)
  check (header.length ≤ limits.maxHeaderBytes) "header_too_large" "metadata exceeds configured bound"
  let total := headerSize + header.length + f.payload.length
  check (total ≤ limits.maxFrameBytes) "frame_too_large" "frame exceeds configured bound"
  let packed ← packHeader header.length f.payload.length
  return packed ++ header ++ f.payload

/-! ## Decoding -/

/-- The magic and the two lengths of `HEADER.unpack_from`. -/
def unpackHeader (data : Bytes) : Bytes × ℕ × ℕ :=
  (data.take 8, Bytes.unpackBE (Bytes.slice data 8 12), Bytes.unpackBE (Bytes.slice data 12 16))

def loadsHeader (header : Bytes) : Except Raised Json :=
  match (PyStr.decode header).bind Json.loads with
  | some v => .ok v
  | none => .error (.ipcFrameError "invalid_header" "frame metadata is not valid UTF-8 JSON")

/-- Whether the metadata has the keys that it must have, and no other. -/
def hasMetadataKeys : Json → Bool
  | .obj fields => (fields.all fun f => f.1 ∈ METADATA_KEYS) && METADATA_KEYS.all fun k => k ∈ fields.map Prod.fst
  | _ => false

/-- `hmac.compare_digest` of a text that must be ASCII. -/
def compareDigest (digest expected : PyStr) : Except Raised Bool :=
  if digest.all fun c => c.code < 128 then .ok (digest = expected) else .error .typeError

/-- The check of the digest in the metadata. -/
def checkDigest (digest : Option Json) (payload : Bytes) : Except Raised Unit :=
  match digest with
  | some (.str digest) => do
    let same ← compareDigest digest (payloadSha256 payload)
    check same "payload_digest_mismatch" "payload digest does not match"
  | _ => check false "payload_digest_mismatch" "payload digest does not match"

def isText (s : PyStr) : Option Json → Bool
  | some (.str t) => t = s
  | _ => false

def decodeFrame (data : Bytes) (limits : FrameLimits) : Except Raised IpcFrame := do
  positiveLimits limits
  check (data.length ≤ limits.maxFrameBytes) "frame_too_large" "frame exceeds configured bound"
  check (headerSize ≤ data.length) "truncated_frame" "frame header is incomplete"
  let (magic, headerLength, payloadLength) := unpackHeader data
  check (magic = MAGIC) "invalid_magic" "frame magic is not supported"
  check (headerLength ≤ limits.maxHeaderBytes) "header_too_large" "metadata exceeds configured bound"
  check (payloadLength ≤ limits.maxPayloadBytes) "payload_too_large" "payload exceeds configured bound"
  let expected := headerSize + headerLength + payloadLength
  check (expected ≤ data.length) "truncated_frame" "frame body is incomplete"
  check (data.length ≤ expected) "trailing_bytes" "frame contains trailing bytes"
  let metadata ← loadsHeader (Bytes.slice data headerSize (headerSize + headerLength))
  check (hasMetadataKeys metadata) "invalid_metadata" "frame metadata keys are invalid"
  check (isText SCHEMA (metadata.get? "schema")) "unsupported_schema" "frame schema is not supported"
  let payload := Bytes.slice data (headerSize + headerLength) expected
  checkDigest (metadata.get? "payload_sha256") payload
  let requestId ← text (metadata.get? "request_id") "request_id" 128
  let operation ← text (metadata.get? "operation") "operation" 128
  let generation ← text (metadata.get? "generation") "generation" 128
  IpcFrame.make ⟨requestId, operation, generation, payload⟩

/-! ## Encoding and decoding -/

section

variable {f : IpcFrame} {limits : FrameLimits} {b : Bytes} {condition : Bool} {x : Raised} {u : Unit}

theorem require_eq_ok_iff : require condition x = .ok u ↔ condition = true := by
  cases condition with
  | true => exact iff_of_true rfl rfl
  | false => exact iff_of_false nofun nofun

theorem check_eq_ok_iff {reasonCode message : PyStr} :
    check condition reasonCode message = .ok u ↔ condition = true := require_eq_ok_iff

theorem encodeText_eq_ok_iff {s : PyStr} : encodeText s = .ok b ↔ s.encode = some b := by
  unfold encodeText
  cases s.encode with
  | none => exact iff_of_false nofun nofun
  | some c => exact ⟨fun h => congrArg some (Except.ok.inj h), fun h => congrArg _ (Option.some.inj h)⟩

theorem encode_eq_ok_iff : f.encode limits = .ok b ↔ positiveLimits limits = .ok () ∧
    f.payload.length ≤ limits.maxPayloadBytes ∧ ∃ header, (f.metadata.dumps false).encode = some header ∧
      header.length ≤ limits.maxHeaderBytes ∧ (headerSize + header.length + f.payload.length : ℕ) ≤ limits.maxFrameBytes ∧
      (header.length < 2 ^ 32 ∧ f.payload.length < 2 ^ 32) ∧
      MAGIC ++ Bytes.packBE 4 header.length ++ Bytes.packBE 4 f.payload.length ++ header ++ f.payload = b := by
  constructor
  · intro h
    obtain ⟨⟨⟩, positive, h⟩ := bind_ok.1 h
    obtain ⟨⟨⟩, payloadBound, h⟩ := bind_ok.1 h
    obtain ⟨header, encoded, h⟩ := bind_ok.1 h
    obtain ⟨⟨⟩, headerBound, h⟩ := bind_ok.1 h
    obtain ⟨⟨⟩, frameBound, h⟩ := bind_ok.1 h
    obtain ⟨packed, pack, h⟩ := bind_ok.1 h
    obtain ⟨⟨⟩, fits, pack⟩ := bind_ok.1 pack
    cases pack
    exact ⟨positive, of_decide_eq_true (check_eq_ok_iff.1 payloadBound), header, encodeText_eq_ok_iff.1 encoded,
      of_decide_eq_true (check_eq_ok_iff.1 headerBound), of_decide_eq_true (check_eq_ok_iff.1 frameBound),
      of_decide_eq_true ((Bool.decide_and _ _).trans (require_eq_ok_iff.1 fits)), Except.ok.inj h⟩
  · rintro ⟨positive, payloadBound, header, encoded, headerBound, frameBound, fits, rfl⟩
    refine bind_ok.2 ⟨(), positive, ?_⟩
    refine bind_ok.2 ⟨(), check_eq_ok_iff.2 (decide_eq_true payloadBound), ?_⟩
    refine bind_ok.2 ⟨header, encodeText_eq_ok_iff.2 encoded, ?_⟩
    refine bind_ok.2 ⟨(), check_eq_ok_iff.2 (decide_eq_true headerBound), ?_⟩
    refine bind_ok.2 ⟨(), check_eq_ok_iff.2 (decide_eq_true frameBound), ?_⟩
    refine bind_ok.2 ⟨_, bind_ok.2 ⟨(), require_eq_ok_iff.2 ((Bool.decide_and _ _).symm.trans (decide_eq_true fits)), rfl⟩, ?_⟩
    rfl

theorem unpackHeader_append {header payload : ℕ} (fits : header < 2 ^ 32 ∧ payload < 2 ^ 32) (rest : Bytes) :
    unpackHeader (MAGIC ++ Bytes.packBE 4 header ++ Bytes.packBE 4 payload ++ rest) = (MAGIC, header, payload) := by
  have magic : MAGIC.length = 8 := rfl
  have first : Bytes.slice (MAGIC ++ Bytes.packBE 4 header ++ Bytes.packBE 4 payload ++ rest) 8 12 =
      Bytes.packBE 4 header := by
    rw [List.append_assoc, List.append_assoc, Bytes.slice_skip magic (Nat.le_refl 8)]
    exact Bytes.slice_head (Bytes.length_packBE 4 header)
  have second : Bytes.slice (MAGIC ++ Bytes.packBE 4 header ++ Bytes.packBE 4 payload ++ rest) 12 16 =
      Bytes.packBE 4 payload := by
    rw [List.append_assoc, Bytes.slice_skip (n := 12) (by simp [magic]) (Nat.le_refl 12)]
    exact Bytes.slice_head (Bytes.length_packBE 4 payload)
  rw [unpackHeader, first, second, Bytes.unpackBE_packBE fits.1, Bytes.unpackBE_packBE fits.2, List.append_assoc,
    List.append_assoc, List.take_left' magic]

theorem sortKeys_metadata (f : FrameFields) : f.metadata.sortKeys = f.metadata := rfl

theorem distinctKeys_metadata (f : FrameFields) : f.metadata.DistinctKeys := by
  have keys : (["generation", "operation", "payload_sha256", "request_id", "schema"] : List PyStr).Nodup := by decide
  exact ⟨keys, trivial, trivial, trivial, trivial, trivial, trivial⟩

theorem loadsHeader_encode {f : FrameFields} (encoded : (f.metadata.dumps false).encode = some b) :
    loadsHeader b = .ok f.metadata := by
  rw [loadsHeader, PyStr.decode_encode encoded, Option.bind_some, Json.loads_dumps _ (distinctKeys_metadata f),
    sortKeys_metadata]

theorem ascii_payloadSha256 (payload : Bytes) : (payloadSha256 payload).all (fun c => c.code < 128) = true := by
  have digit : ∀ n < 16, (Bytes.hexDigit n).toNat < 128 := by decide
  rw [List.all_eq_true]
  intro c mem
  obtain ⟨d, hex, rfl⟩ := List.mem_map.1 mem
  obtain ⟨x, -, pair⟩ := List.mem_flatMap.1 hex
  have byte := x.toNat_lt
  refine decide_eq_true ?_
  rcases List.mem_pair.1 pair with rfl | rfl
  · exact digit _ (by omega)
  · exact digit _ (Nat.mod_lt _ (by decide))

theorem checkDigest_payloadSha256 (payload : Bytes) :
    checkDigest (some (.str (payloadSha256 payload))) payload = .ok () := by
  rw [checkDigest, compareDigest, if_pos (ascii_payloadSha256 payload)]
  exact bind_ok.2 ⟨true, congrArg _ (decide_eq_true rfl), rfl⟩

theorem text_eq_ok {value : Option Json} {field s : PyStr} {limit : ℕ} (h : text value field limit = .ok s) :
    value = some (.str s) := by
  rcases value with _ | v
  · cases h
  cases v with
  | str t =>
    rw [text] at h
    split at h
    · cases h
    · split at h
      · cases h
      · split at h
        · cases h
        · cases h
          rfl
  | _ => cases h

theorem postInit_eq_ok_iff {f : FrameFields} : f.postInit = .ok () ↔
    text (some (.str f.requestId)) "request_id" 128 = .ok f.requestId ∧
      text (some (.str f.operation)) "operation" 128 = .ok f.operation ∧
      text (some (.str f.generation)) "generation" 128 = .ok f.generation := by
  constructor
  · intro h
    obtain ⟨requestId, first, h⟩ := bind_ok.1 h
    obtain ⟨operation, second, h⟩ := bind_ok.1 h
    obtain ⟨generation, third, -⟩ := bind_ok.1 h
    cases text_eq_ok first
    cases text_eq_ok second
    cases text_eq_ok third
    exact ⟨first, second, third⟩
  · rintro ⟨first, second, third⟩
    refine bind_ok.2 ⟨_, first, ?_⟩
    refine bind_ok.2 ⟨_, second, ?_⟩
    exact bind_ok.2 ⟨_, third, rfl⟩

theorem make_self (f : IpcFrame) : IpcFrame.make f.toFrameFields = .ok f := by
  unfold IpcFrame.make
  split
  · rfl
  · next h => exact absurd (f.valid.symm.trans h) nofun

theorem decodeFrame_encode (encoded : f.encode limits = .ok b) : decodeFrame b limits = .ok f := by
  obtain ⟨positive, payloadBound, header, dumped, headerBound, frameBound, fits, rfl⟩ := encode_eq_ok_iff.1 encoded
  obtain ⟨requestId, operation, generation⟩ := postInit_eq_ok_iff.1 f.valid
  have front : (MAGIC ++ Bytes.packBE 4 header.length ++ Bytes.packBE 4 f.payload.length).length = headerSize := by
    simp only [List.length_append, Bytes.length_packBE]
    rfl
  have length : (MAGIC ++ Bytes.packBE 4 header.length ++ Bytes.packBE 4 f.payload.length ++ header ++ f.payload).length =
      headerSize + header.length + f.payload.length := by
    rw [List.length_append, List.length_append, front]
  have unpacked := unpackHeader_append fits (header ++ f.payload)
  have metadata : Bytes.slice (MAGIC ++ Bytes.packBE 4 header.length ++ Bytes.packBE 4 f.payload.length ++ header ++
      f.payload) headerSize (headerSize + header.length) = header := by
    rw [← front]
    exact Bytes.slice_middle _ header f.payload
  have payload : Bytes.slice (MAGIC ++ Bytes.packBE 4 header.length ++ Bytes.packBE 4 f.payload.length ++ header ++
      f.payload) (headerSize + header.length) (headerSize + header.length + f.payload.length) = f.payload := by
    rw [← front, ← List.length_append]
    exact Bytes.slice_append_self _ f.payload _ rfl
  rw [← List.append_assoc] at unpacked
  refine bind_ok.2 ⟨(), positive, ?_⟩
  refine bind_ok.2 ⟨(), check_eq_ok_iff.2 (decide_eq_true (length ▸ frameBound)), ?_⟩
  refine bind_ok.2 ⟨(), check_eq_ok_iff.2 (decide_eq_true (length ▸ by omega)), ?_⟩
  rw [unpacked]
  dsimp only
  refine bind_ok.2 ⟨(), rfl, ?_⟩
  refine bind_ok.2 ⟨(), check_eq_ok_iff.2 (decide_eq_true headerBound), ?_⟩
  refine bind_ok.2 ⟨(), check_eq_ok_iff.2 (decide_eq_true payloadBound), ?_⟩
  refine bind_ok.2 ⟨(), check_eq_ok_iff.2 (decide_eq_true length.ge), ?_⟩
  refine bind_ok.2 ⟨(), check_eq_ok_iff.2 (decide_eq_true length.le), ?_⟩
  rw [metadata, payload]
  refine bind_ok.2 ⟨_, loadsHeader_encode dumped, ?_⟩
  refine bind_ok.2 ⟨(), rfl, ?_⟩
  refine bind_ok.2 ⟨(), rfl, ?_⟩
  refine bind_ok.2 ⟨(), checkDigest_payloadSha256 f.payload, ?_⟩
  refine bind_ok.2 ⟨_, requestId, ?_⟩
  refine bind_ok.2 ⟨_, operation, ?_⟩
  exact bind_ok.2 ⟨_, generation, make_self f⟩

end

end Ipc

end SimplicioFast
