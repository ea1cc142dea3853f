import SimplicioFast.Ipc.Frame

/-!
# The errors of the frame decoder

`decode_frame` turns the errors of the layout and of the JSON text into `IpcFrameError`.  Three ways
lead around it: `json.loads` gives up on a nesting that is too deep or an int that is too long,
`hmac.compare_digest` rejects a text that is not ASCII, and `_text` encodes a text that may hold a
lone surrogate.  `Safe` says that none is taken; then, and only then, the decoder raises nothing but
`IpcFrameError` (`raisesOnly_decodeFrameIn_iff`).
-/

namespace SimplicioFast

namespace Ipc

/-- What `json.loads` raises. -/
inductive LoadsRaised
  | jsonDecodeError
  | recursionError
  | valueError

/-- What `json.loads` does on an interpreter; how deep it reads and how long its ints are is not up
to the text. -/
abbrev Loads := PyStr → Except LoadsRaised Json

/-- `json.loads` without limits on the depth and on the ints. -/
def loadsUnlimited : Loads := fun s =>
  match Json.loads s with
  | some v => .ok v
  | none => .error .jsonDecodeError

/-! ## The decoder -/

/-- The layout of a frame: its metadata and its payload. -/
def openFrame (data : Bytes) (limits : FrameLimits) : Except Raised (Bytes × Bytes) := do
  check (data.length ≤ limits.maxFrameBytes) "frame_too_large" "frame exceeds configured bound"
  check (headerSize ≤ data.length) "truncated_frame" "frame header is incomplete"
  let (magic, headerLength, payloadLength) := unpackHeader data
  check (magic = MAGIC) "invalid_magic" "frame magic is not supported"
  check (headerLength ≤ limits.maxHeaderBytes) "header_too_large"
    "metadata exceeds configured bound"
  check (payloadLength ≤ limits.maxPayloadBytes) "payload_too_large"
    "payload exceeds configured bound"
  let expected := headerSize + headerLength + payloadLength
  check (expected ≤ data.length) "truncated_frame" "frame body is incomplete"
  check (data.length ≤ expected) "trailing_bytes" "frame contains trailing bytes"
  return (Bytes.slice data headerSize (headerSize + headerLength),
    Bytes.slice data (headerSize + headerLength) expected)

/-- The metadata as JSON; only `UnicodeDecodeError` and `JSONDecodeError` are caught. -/
def loadsHeaderIn (loads : Loads) (header : Bytes) : Except Raised Json :=
  match PyStr.decode header with
  | none => .error (.ipcFrameError "invalid_header" "frame metadata is not valid UTF-8 JSON")
  | some text =>
    match loads text with
    | .ok v => .ok v
    | .error .jsonDecodeError =>
      .error (.ipcFrameError "invalid_header" "frame metadata is not valid UTF-8 JSON")
    | .error .recursionError => .error .recursionError
    | .error .valueError =>
      .error (.valueError "Exceeds the limit (4300 digits) for integer string conversion")

/-- The checks of the metadata, and the frame. -/
def frameOf (metadata : Json) (payload : Bytes) : Except Raised IpcFrame := do
  check (hasMetadataKeys metadata) "invalid_metadata" "frame metadata keys are invalid"
  check (isText SCHEMA (metadata.get? "schema")) "unsupported_schema"
    "frame schema is not supported"
  checkDigest (metadata.get? "payload_sha256") payload
  let requestId ← text (metadata.get? "request_id") "request_id" 128
  let operation ← text (metadata.get? "operation") "operation" 128
  let generation ← text (metadata.get? "generation") "generation" 128
  IpcFrame.make ⟨requestId, operation, generation, payload⟩

/-- `decode_frame` on an interpreter. -/
def decodeFrameIn (loads : Loads) (data : Bytes) (limits : FrameLimits) :
    Except Raised IpcFrame := do
  positiveLimits limits
  let (header, payload) ← openFrame data limits
  let metadata ← loadsHeaderIn loads header
  frameOf metadata payload

/-! ## Ways out of the contract -/

/-- The exception is `IpcFrameError`. -/
def IsFrameError : Raised → Prop
  | .ipcFrameError _ _ => True
  | _ => False

def Encodable (value : Option Json) : Prop := ∀ s, value = some (.str s) →
    ∀ n, PyChar.surrogate n ∉ s

/-- `_text` returns the entry. -/
def Good (value : Option Json) : Prop :=
  ∃ s b, value = some (.str s) ∧ s ≠ [] ∧ s.encode = some b ∧ b.length ≤ 128

/-- A digest is ASCII, and the texts that are reached have no lone surrogate. -/
structure SafeMetadata (metadata : Json) (payload : Bytes) : Prop where
  digest : ∀ digest, metadata.get? "payload_sha256" = some (.str digest) → ∀ c ∈ digest,
    c.code < 128
  requestId : metadata.get? "payload_sha256" = some (.str (payloadSha256 payload)) →
    Encodable (metadata.get? "request_id")
  operation : metadata.get? "payload_sha256" = some (.str (payloadSha256 payload)) →
    Good (metadata.get? "request_id") → Encodable (metadata.get? "operation")
  generation : metadata.get? "payload_sha256" = some (.str (payloadSha256 payload)) →
    Good (metadata.get? "request_id") → Good (metadata.get? "operation") →
      Encodable (metadata.get? "generation")

/-- The limits are positive; `json.loads` reads the metadata of a frame or finds that it is no JSON
text; and metadata with the keys and the schema of a frame are safe. -/
def Safe (loads : Loads) (data : Bytes) (limits : FrameLimits) : Prop :=
  positiveLimits limits = .ok () ∧
    ∀ header payload text, openFrame data limits = .ok (header, payload) → PyStr.decode header =
      some text →
      loads text ≠ .error .recursionError ∧ loads text ≠ .error .valueError ∧
        ∀ metadata, loads text = .ok metadata → hasMetadataKeys metadata = true →
          isText SCHEMA (metadata.get? "schema") = true → SafeMetadata metadata payload

variable {condition : Bool} {reasonCode message field s : PyStr} {data header payload : Bytes}
    {limits : FrameLimits}
  {loads : Loads} {metadata : Json} {value : Option Json}

theorem raisesOnly_check : Except.RaisesOnly IsFrameError (check condition reasonCode message) := by
  cases condition with
  | true => exact Except.raisesOnly_ok ()
  | false => exact (Except.raisesOnly_error _).2 trivial

theorem raisesOnly_openFrame : Except.RaisesOnly IsFrameError (openFrame data limits) := by
  unfold openFrame
  repeat' first
    | exact raisesOnly_check
    | exact Except.raisesOnly_ok _
    | refine Except.raisesOnly_bind_iff.2 ⟨raisesOnly_check, fun _ _ => ?_⟩

theorem raisesOnly_positiveLimits_iff :
    Except.RaisesOnly IsFrameError (positiveLimits limits) ↔ positiveLimits limits = .ok () := by
  unfold positiveLimits require
  split
  · exact iff_of_true (Except.raisesOnly_ok _) rfl
  · exact iff_of_false (fun h => (Except.raisesOnly_error _).1 h) nofun

/-- `_text` leaves the contract on a lone surrogate. -/
theorem raisesOnly_text_iff : Except.RaisesOnly IsFrameError (text value field 128) ↔
    Encodable value := by
  have other (value : Option Json) (h : ∀ s, value ≠ some (.str s)) : Encodable value :=
      fun s same => absurd same (h s)
  unfold text
  split
  · next s =>
    have encodable : Encodable (some (.str s)) ↔ ∀ n, PyChar.surrogate n ∉ s := by
      refine ⟨fun h => h s rfl, fun h t same => ?_⟩
      cases same
      exact h
    rw [encodable, ← PyStr.encode_isSome_iff]
    split
    · next empty => exact iff_of_true ((Except.raisesOnly_error _).2 trivial) (empty ▸ rfl)
    · split
      · next none => exact iff_of_false (fun h => (Except.raisesOnly_error _).1 h) (by simp [none])
      · next b some =>
        refine iff_of_true ?_ (by simp [some])
        split
        · exact (Except.raisesOnly_error _).2 trivial
        · exact Except.raisesOnly_ok _
  · next h =>
    refine iff_of_true ((Except.raisesOnly_error _).2 trivial) (other _ ?_)
    rintro s rfl
    exact h s rfl

theorem exists_text_iff : (∃ s, text value field 128 = .ok s) ↔ Good value := by
  constructor
  · rintro ⟨s, h⟩
    obtain rfl := text_eq_ok h
    unfold text at h
    dsimp only at h
    split_ifs at h with empty
    cases encoded : s.encode with
    | none =>
      rw [encoded] at h
      cases h
    | some b =>
      rw [encoded] at h
      dsimp only at h
      split_ifs at h with long
      exact ⟨s, b, rfl, empty, encoded, Nat.le_of_not_lt long⟩
  · rintro ⟨s, b, rfl, filled, encoded, short⟩
    refine ⟨s, ?_⟩
    rw [text, if_neg filled, encoded]
    exact if_neg (Nat.not_lt.2 short)

theorem raisesOnly_checkDigest_iff :
    Except.RaisesOnly IsFrameError (checkDigest value payload) ↔
      ∀ digest, value = some (.str digest) → ∀ c ∈ digest, c.code < 128 := by
  unfold checkDigest
  split
  · next digest =>
    have ascii : (∀ other, some (Json.str digest) = some (.str other) → ∀ c ∈ other, c.code < 128) ↔
        (digest.all fun c => c.code < 128) = true := by
      rw [List.all_eq_true]
      refine ⟨fun h c mem => decide_eq_true (h digest rfl c mem), fun h other same => ?_⟩
      cases same
      exact fun c mem => of_decide_eq_true (h c mem)
    rw [ascii, compareDigest]
    by_cases plain : (digest.all fun c => c.code < 128) = true
    · rw [if_pos plain]
      exact iff_of_true
        (Except.raisesOnly_bind_iff.2 ⟨Except.raisesOnly_ok _, fun _ _ => raisesOnly_check⟩) plain
    · rw [if_neg plain]
      exact iff_of_false (fun h => (Except.raisesOnly_error _).1 h) plain
  · next h =>
    refine iff_of_true raisesOnly_check ?_
    rintro digest rfl
    exact absurd rfl (h digest)

theorem checkDigest_eq_ok_iff :
    checkDigest value payload = .ok () ↔ value = some (.str (payloadSha256 payload)) := by
  constructor
  · intro h
    unfold checkDigest at h
    split at h
    · next digest =>
      obtain ⟨same, compared, h⟩ := bind_ok.1 h
      have equal := check_eq_ok_iff.1 h
      unfold compareDigest at compared
      split_ifs at compared
      rw [equal] at compared
      rw [of_decide_eq_true (Except.ok.inj compared)]
    · cases h
  · rintro rfl
    exact checkDigest_payloadSha256 payload

theorem raisesOnly_make {f : FrameFields} (valid : f.postInit = .ok ()) :
    Except.RaisesOnly IsFrameError (IpcFrame.make f) := by
  rw [make_self ⟨f, valid⟩]
  exact Except.raisesOnly_ok _

theorem raisesOnly_frameOf_iff :
    Except.RaisesOnly IsFrameError (frameOf metadata payload) ↔
      (hasMetadataKeys metadata = true → isText SCHEMA (metadata.get? "schema") = true →
        SafeMetadata metadata payload) := by
  unfold frameOf
  simp only [Except.raisesOnly_bind_iff, raisesOnly_check, true_and, check_eq_ok_iff, forall_const,
    raisesOnly_checkDigest_iff, raisesOnly_text_iff]
  refine forall₂_congr fun _ _ => ?_
  constructor
  · rintro ⟨digest, rest⟩
    have compared (h : metadata.get? "payload_sha256" = some (.str (payloadSha256 payload))) :=
      rest () (checkDigest_eq_ok_iff.2 h)
    refine ⟨digest, fun same => (compared same).1, fun same good => ?_, fun same good good' => ?_⟩
    · obtain ⟨s, read⟩ := exists_text_iff.2 good
      exact ((compared same).2 s read).1
    · obtain ⟨s, read⟩ := exists_text_iff.2 good
      obtain ⟨s', read'⟩ := exists_text_iff.2 good'
      exact (((compared same).2 s read).2 s' read').1
  · rintro ⟨digest, requestId, operation, generation⟩
    refine ⟨digest, fun _ compared => ?_⟩
    have same := checkDigest_eq_ok_iff.1 compared
    refine ⟨requestId same, fun r readR => ?_⟩
    have goodR := exists_text_iff.1 ⟨r, readR⟩
    refine ⟨operation same goodR, fun o readO => ?_⟩
    have goodO := exists_text_iff.1 ⟨o, readO⟩
    refine ⟨generation same goodR goodO, fun g readG => raisesOnly_make ?_⟩
    rw [text_eq_ok readR] at readR
    rw [text_eq_ok readO] at readO
    rw [text_eq_ok readG] at readG
    exact postInit_eq_ok_iff.2 ⟨readR, readO, readG⟩

/-- Reading the metadata leaves the contract when `json.loads` gives up. -/
theorem raisesOnly_loadsHeaderIn_iff :
    Except.RaisesOnly IsFrameError (loadsHeaderIn loads header) ↔
      ∀ text, PyStr.decode header = some text →
        loads text ≠ .error .recursionError ∧ loads text ≠ .error .valueError := by
  unfold loadsHeaderIn
  cases PyStr.decode header with
  | none => exact iff_of_true ((Except.raisesOnly_error _).2 trivial) nofun
  | some text =>
    dsimp only
    have here :
        (∀ t, some text = some t → loads t ≠ .error .recursionError ∧
        loads t ≠ .error .valueError) ↔
        loads text ≠ .error .recursionError ∧ loads text ≠ .error .valueError :=
      ⟨fun h => h text rfl, fun h t same => Option.some.inj same ▸ h⟩
    rw [here]
    cases loads text with
    | ok v => exact iff_of_true (Except.raisesOnly_ok _) ⟨nofun, nofun⟩
    | error raised =>
      cases raised with
      | jsonDecodeError => exact iff_of_true ((Except.raisesOnly_error _).2 trivial) ⟨nofun, nofun⟩
      | recursionError =>
        exact iff_of_false (fun h => (Except.raisesOnly_error _).1 h) fun h => h.1 rfl
      | valueError => exact iff_of_false (fun h => (Except.raisesOnly_error _).1 h) fun h => h.2 rfl

theorem loadsHeaderIn_eq_ok_iff :
    loadsHeaderIn loads header = .ok metadata ↔
      ∃ text, PyStr.decode header = some text ∧ loads text = .ok metadata := by
  unfold loadsHeaderIn
  cases PyStr.decode header with
  | none => exact iff_of_false nofun fun ⟨_, h, _⟩ => nomatch h
  | some text =>
    simp only [Option.some.injEq, exists_eq_left']
    cases loads text with
    | ok v => simp
    | error raised => cases raised <;> exact iff_of_false nofun nofun

/-- The decoder returns a frame or raises `IpcFrameError` exactly on safe input. -/
theorem raisesOnly_decodeFrameIn_iff (loads : Loads) (data : Bytes) (limits : FrameLimits) :
    Except.RaisesOnly IsFrameError (decodeFrameIn loads data limits) ↔ Safe loads data limits := by
  unfold decodeFrameIn Safe
  rw [Except.raisesOnly_bind_iff, raisesOnly_positiveLimits_iff]
  refine and_congr_right fun positive => ?_
  simp only [positive, forall_const, Except.raisesOnly_bind_iff, raisesOnly_openFrame, true_and,
    Prod.forall, raisesOnly_loadsHeaderIn_iff, raisesOnly_frameOf_iff, loadsHeaderIn_eq_ok_iff]
  constructor
  · intro h header payload text opened decoded
    obtain ⟨reads, checks⟩ := h header payload opened
    exact ⟨(reads text decoded).1, (reads text decoded).2, fun metadata read =>
      checks metadata ⟨text, decoded, read⟩⟩
  · intro h header payload opened
    refine ⟨fun text decoded => ?_, fun metadata ⟨text, decoded, read⟩ => ?_⟩
    · exact ⟨(h header payload text opened decoded).1, (h header payload text opened decoded).2.1⟩
    · exact (h header payload text opened decoded).2.2 metadata read

/-- Metadata whose digest is not ASCII. -/
def accentedMetadata : Json :=
  .obj [("generation", .str "g"), ("operation", .str "o"), ("payload_sha256", .str "é"),
    ("request_id", .str "r"),
    ("schema", .str SCHEMA)]

/-- A frame with such metadata and an empty payload. -/
def accentedFrame : Bytes :=
  let header := ((accentedMetadata.dumps false).encode).getD []
  MAGIC ++ Bytes.packBE 4 header.length ++ Bytes.packBE 4 0 ++ header

/-- `hmac.compare_digest` raises `TypeError` on the frame. -/
theorem not_raisesOnly_accentedFrame :
    ¬ ∀ data : Bytes, Except.RaisesOnly IsFrameError (decodeFrame data {}) := by
  have raised : decodeFrame accentedFrame {} = .error .typeError := by decide +kernel
  exact fun h => h accentedFrame _ raised

end Ipc

end SimplicioFast
