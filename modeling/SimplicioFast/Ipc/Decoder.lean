import SimplicioFast.Ipc.Frame
import SimplicioFast.Lib.Chunks
import SimplicioFast.Lib.Sha256Eval

/-!
# The decoder of the IPC transport

`IpcFrameDecoder` takes frames from the front of its buffer.  One turn of its loop is `nextFrame`; it looks at nothing
behind the first frame (`lawful_nextFrame`), so a stream is delivered whatever its chunks exactly when no bad frame
stands in it behind a good one (`delivers_iff`).
-/

namespace SimplicioFast

namespace Ipc

/-! ## The decoder -/

structure IpcFrameDecoder where
  limits : FrameLimits
  positive : positiveLimits limits = .ok ()
  buffer : Bytes

/-- `IpcFrameDecoder.__init__`. -/
def IpcFrameDecoder.make (limits : FrameLimits) : Except Raised IpcFrameDecoder :=
  match h : positiveLimits limits with
  | .ok () => .ok ⟨limits, h, []⟩
  | .error x => .error x

/-- The checks of a header in the buffer: the length of its frame. -/
def checkHeader (limits : FrameLimits) (buffer : Bytes) : Except Raised ℕ := do
  let (magic, headerLength, payloadLength) := unpackHeader buffer
  check (magic = MAGIC) "invalid_magic" "frame magic is not supported"
  check (headerLength ≤ limits.maxHeaderBytes) "header_too_large" "metadata exceeds configured bound"
  check (payloadLength ≤ limits.maxPayloadBytes) "payload_too_large" "payload exceeds configured bound"
  let expected := headerSize + headerLength + payloadLength
  check (expected ≤ limits.maxFrameBytes) "frame_too_large" "frame exceeds configured bound"
  return expected

/-- One turn of the loop of `IpcFrameDecoder.feed`; the bytes of a frame leave the buffer before it is decoded. -/
def nextFrame (limits : FrameLimits) (buffer : Bytes) : Chunks.Front IpcFrame UInt8 Raised :=
  if buffer.length < headerSize then .wait
  else match checkHeader limits buffer with
    | .error x => .bad x buffer
    | .ok expected =>
      if buffer.length < expected then .wait
      else match decodeFrame (buffer.take expected) limits with
        | .ok frame => .item frame (buffer.drop expected)
        | .error x => .bad x (buffer.drop expected)

def IpcFrameDecoder.feed (d : IpcFrameDecoder) (data : Bytes) : Except Raised (List IpcFrame) × IpcFrameDecoder :=
  let (frames, buffer) := Chunks.feed (nextFrame d.limits) d.buffer data
  (frames, { d with buffer })

def IpcFrameDecoder.finish (d : IpcFrameDecoder) : Except Raised Unit :=
  check (d.buffer = []) "truncated_frame" "stream ended with an incomplete frame"

/-- The chunks are fed one after the other up to the first error: the frames that are delivered, and the error. -/
def IpcFrameDecoder.feedAll : IpcFrameDecoder → List Bytes → List IpcFrame × Option Raised
  | _, [] => ([], none)
  | d, chunk :: chunks => match d.feed chunk with
    | (.error x, _) => ([], some x)
    | (.ok frames, d) => (frames ++ (d.feedAll chunks).1, (d.feedAll chunks).2)

variable {limits : FrameLimits} {b p rest more : Bytes} {f : IpcFrame} {n : ℕ} {x : Raised}

/-! ## One turn looks at one frame -/

theorem unpackHeader_append_right (long : headerSize ≤ b.length) (more : Bytes) :
    unpackHeader (b ++ more) = unpackHeader b := by
  have long : 16 ≤ b.length := long
  rw [unpackHeader, unpackHeader, List.take_append_of_le_length (by omega), Bytes.slice_append_left (by omega),
    Bytes.slice_append_left (by omega)]

theorem checkHeader_append (long : headerSize ≤ b.length) (more : Bytes) :
    checkHeader limits (b ++ more) = checkHeader limits b := by
  rw [checkHeader, checkHeader, unpackHeader_append_right long]

theorem headerSize_le_of_checkHeader (h : checkHeader limits b = .ok n) : headerSize ≤ n := by
  obtain ⟨⟨⟩, -, h⟩ := bind_ok.1 h
  obtain ⟨⟨⟩, -, h⟩ := bind_ok.1 h
  obtain ⟨⟨⟩, -, h⟩ := bind_ok.1 h
  obtain ⟨⟨⟩, -, h⟩ := bind_ok.1 h
  cases h
  omega

theorem nextFrame_of_error (long : headerSize ≤ b.length) (failed : checkHeader limits b = .error x) :
    nextFrame limits b = .bad x b := by
  rw [nextFrame, if_neg (Nat.not_lt.2 long), failed]

theorem nextFrame_of_short (checked : checkHeader limits b = .ok n) (short : b.length < n) :
    nextFrame limits b = .wait := by
  unfold nextFrame
  split
  · rfl
  · rw [checked]
    exact if_pos short

theorem nextFrame_of_whole (checked : checkHeader limits b = .ok n) (whole : n ≤ b.length) :
    nextFrame limits b = match decodeFrame (b.take n) limits with
      | .ok frame => .item frame (b.drop n)
      | .error x => .bad x (b.drop n) := by
  have long : headerSize ≤ b.length := (headerSize_le_of_checkHeader checked).trans whole
  rw [nextFrame, if_neg (Nat.not_lt.2 long), checked]
  exact if_neg (Nat.not_lt.2 whole)

theorem nextFrame_eq_item_iff : nextFrame limits b = .item f rest ↔ headerSize ≤ b.length ∧ ∃ n,
    checkHeader limits b = .ok n ∧ n ≤ b.length ∧ decodeFrame (b.take n) limits = .ok f ∧ b.drop n = rest := by
  constructor
  · intro h
    by_cases long : headerSize ≤ b.length
    · refine ⟨long, ?_⟩
      cases checked : checkHeader limits b with
      | error x =>
        rw [nextFrame_of_error long checked] at h
        cases h
      | ok n =>
        by_cases whole : n ≤ b.length
        · refine ⟨n, rfl, whole, ?_⟩
          rw [nextFrame_of_whole checked whole] at h
          cases decoded : decodeFrame (b.take n) limits with
          | error x =>
            rw [decoded] at h
            cases h
          | ok frame =>
            rw [decoded] at h
            cases h
            exact ⟨rfl, rfl⟩
        · rw [nextFrame_of_short checked (by omega)] at h
          cases h
    · rw [nextFrame, if_pos (by omega)] at h
      cases h
  · rintro ⟨-, n, checked, whole, decoded, rfl⟩
    rw [nextFrame_of_whole checked whole, decoded]

theorem nextFrame_eq_bad_iff : nextFrame limits b = .bad x rest ↔ headerSize ≤ b.length ∧
    (checkHeader limits b = .error x ∧ b = rest ∨ ∃ n, checkHeader limits b = .ok n ∧ n ≤ b.length ∧
      decodeFrame (b.take n) limits = .error x ∧ b.drop n = rest) := by
  constructor
  · intro h
    by_cases long : headerSize ≤ b.length
    · refine ⟨long, ?_⟩
      cases checked : checkHeader limits b with
      | error x =>
        rw [nextFrame_of_error long checked] at h
        cases h
        exact .inl ⟨rfl, rfl⟩
      | ok n =>
        right
        by_cases whole : n ≤ b.length
        · refine ⟨n, rfl, whole, ?_⟩
          rw [nextFrame_of_whole checked whole] at h
          cases decoded : decodeFrame (b.take n) limits with
          | error x =>
            rw [decoded] at h
            cases h
            exact ⟨rfl, rfl⟩
          | ok frame =>
            rw [decoded] at h
            cases h
        · rw [nextFrame_of_short checked (by omega)] at h
          cases h
    · rw [nextFrame, if_pos (by omega)] at h
      cases h
  · rintro ⟨long, ⟨failed, rfl⟩ | ⟨n, checked, whole, failed, rfl⟩⟩
    · exact nextFrame_of_error long failed
    · rw [nextFrame_of_whole checked whole, failed]

theorem lawful_nextFrame (limits : FrameLimits) : Chunks.Lawful (nextFrame limits) where
  nil := rfl
  item b f rest h := by
    obtain ⟨long, n, checked, whole, decoded, rfl⟩ := nextFrame_eq_item_iff.1 h
    have least := headerSize_le_of_checkHeader checked
    have width : (b.take n).length = n := List.length_take_of_le whole
    have same : checkHeader limits b = checkHeader limits (b.take n) := by
      conv_lhs => rw [← List.take_append_drop n b]
      exact checkHeader_append (by omega) _
    refine ⟨b.take n, ?_, (List.take_append_drop n b).symm, nextFrame_eq_item_iff.2 ⟨by omega, n, ?_, width.ge, ?_, ?_⟩⟩
    · apply List.ne_nil_of_length_pos
      rw [width]
      exact Nat.lt_of_lt_of_le (by decide) least
    · rw [← same, checked]
    · rw [List.take_of_length_le width.le, decoded]
    · exact List.drop_eq_nil_of_le width.le
  item_append b f rest more h := by
    obtain ⟨long, n, checked, whole, decoded, rfl⟩ := nextFrame_eq_item_iff.1 h
    have length : (b ++ more).length = b.length + more.length := List.length_append
    refine nextFrame_eq_item_iff.2 ⟨by omega, n, ?_, by omega, ?_, List.drop_append_of_le_length whole⟩
    · rw [checkHeader_append long, checked]
    · rw [List.take_append_of_le_length whole, decoded]
  bad_append b x rest more h := by
    obtain ⟨long, bad⟩ := nextFrame_eq_bad_iff.1 h
    have length : (b ++ more).length = b.length + more.length := List.length_append
    refine nextFrame_eq_bad_iff.2 ⟨by omega, ?_⟩
    rw [checkHeader_append long]
    rcases bad with ⟨failed, rfl⟩ | ⟨n, checked, whole, failed, rfl⟩
    · exact .inl ⟨failed, rfl⟩
    · refine .inr ⟨n, checked, by omega, ?_, List.drop_append_of_le_length whole⟩
      rw [List.take_append_of_le_length whole, failed]

theorem nextFrame_encode (encoded : f.encode limits = .ok b) : nextFrame limits b = .item f [] := by
  obtain ⟨-, payloadBound, header, dumped, headerBound, frameBound, fits, parts⟩ := encode_eq_ok_iff.1 encoded
  have length : b.length = headerSize + header.length + f.payload.length := by
    rw [← parts]
    simp only [List.length_append, Bytes.length_packBE]
    rfl
  have unpacked : unpackHeader b = (MAGIC, header.length, f.payload.length) := by
    rw [← parts, List.append_assoc]
    exact unpackHeader_append fits _
  have checked : checkHeader limits b = .ok b.length := by
    rw [checkHeader, unpacked, length]
    refine bind_ok.2 ⟨(), rfl, ?_⟩
    refine bind_ok.2 ⟨(), check_eq_ok_iff.2 (decide_eq_true headerBound), ?_⟩
    refine bind_ok.2 ⟨(), check_eq_ok_iff.2 (decide_eq_true payloadBound), ?_⟩
    exact bind_ok.2 ⟨(), check_eq_ok_iff.2 (decide_eq_true frameBound), rfl⟩
  refine nextFrame_eq_item_iff.2 ⟨by omega, b.length, checked, Nat.le_refl _, ?_, List.drop_length⟩
  rw [List.take_length]
  exact decodeFrame_encode encoded

/-! ## What is delivered of a stream -/

theorem feedAll_eq (d : IpcFrameDecoder) (chunks : List Bytes) :
    d.feedAll chunks = ((Chunks.session (nextFrame d.limits) d.buffer chunks).1,
      (Chunks.session (nextFrame d.limits) d.buffer chunks).2.1) := by
  induction chunks generalizing d with
  | nil => rfl
  | cons chunk chunks ih =>
    rw [IpcFrameDecoder.feedAll, Chunks.session, IpcFrameDecoder.feed]
    rcases Chunks.feed (nextFrame d.limits) d.buffer chunk with ⟨frames, buffer⟩
    cases frames with
    | error x => rfl
    | ok frames => simp only [ih]

/-- The frames of a stream up to its first bad one, and the error of that one. -/
def framesOf (limits : FrameLimits) (s : Bytes) : List IpcFrame × Option Raised :=
  ((Chunks.parse (nextFrame limits) s).1, (Chunks.parse (nextFrame limits) s).2.1)

/-- A bad frame stands in the stream behind a good one: the bytes of good frames, and then bytes that are refused. -/
def BadBehindGood (limits : FrameLimits) (s : Bytes) : Prop := Chunks.BadBehind (nextFrame limits) s

/-- The decoder delivers the frames of the stream up to the first bad one and its error, whatever the chunks. -/
def DeliversFrames (d : IpcFrameDecoder) (s : Bytes) : Prop :=
  ∀ chunks : List Bytes, chunks.flatten = s → d.feedAll chunks = framesOf d.limits s

/-- What the decoder delivers of the stream does not depend on its chunks. -/
def ChunkingInvariant (d : IpcFrameDecoder) (s : Bytes) : Prop :=
  ∀ chunks chunks' : List Bytes, chunks.flatten = s → chunks'.flatten = s → d.feedAll chunks = d.feedAll chunks'

theorem make_eq_ok {d : IpcFrameDecoder} (made : IpcFrameDecoder.make limits = .ok d) :
    d.limits = limits ∧ d.buffer = [] := by
  unfold IpcFrameDecoder.make at made
  split at made
  · cases made
    exact ⟨rfl, rfl⟩
  · cases made

theorem feedAll_of_make {d : IpcFrameDecoder} (made : IpcFrameDecoder.make limits = .ok d) (chunks : List Bytes) :
    d.feedAll chunks = Chunks.delivered (nextFrame limits) chunks := by
  obtain ⟨rfl, fresh⟩ := make_eq_ok made
  rw [feedAll_eq, fresh]
  rfl

/-- Decoding undoes encoding, and a new decoder delivers the frames of a stream whatever its chunks, and the same for all
of them, exactly when no bad frame stands in it behind a good one. -/
theorem chunking_iff {d : IpcFrameDecoder} (made : IpcFrameDecoder.make limits = .ok d) :
    (∀ (limits : FrameLimits) (f : IpcFrame) (b : Bytes), f.encode limits = .ok b → decodeFrame b limits = .ok f) ∧
      ∀ s : Bytes, (DeliversFrames d s ↔ ¬ BadBehindGood limits s) ∧ (ChunkingInvariant d s ↔ ¬ BadBehindGood limits s) := by
  refine ⟨fun limits f b => decodeFrame_encode, fun s => ⟨?_, ?_⟩⟩
  · apply Iff.trans _ (Chunks.delivers_iff_not_badBehind (lawful_nextFrame limits))
    unfold DeliversFrames
    simp only [feedAll_of_make made, (make_eq_ok made).1]
    rfl
  · apply Iff.trans _ (Chunks.invariant_iff_not_badBehind (lawful_nextFrame limits))
    unfold ChunkingInvariant
    simp only [feedAll_of_make made]
    rfl

/-- The decoder with the default limits. -/
def newDecoder : IpcFrameDecoder := ⟨{}, rfl, []⟩

/-- The statement for the decoder with the default limits. -/
theorem chunking_iff_default :
    (∀ (limits : FrameLimits) (f : IpcFrame) (b : Bytes), f.encode limits = .ok b → decodeFrame b limits = .ok f) ∧
      ∀ s : Bytes, (DeliversFrames newDecoder s ↔ ¬ BadBehindGood {} s) ∧
        (ChunkingInvariant newDecoder s ↔ ¬ BadBehindGood {} s) :=
  chunking_iff rfl

/-! ## A bad frame behind a good one -/

def emptyFrame : IpcFrame := ⟨⟨"r", "o", "g", []⟩, by decide +kernel⟩

/-- Sixteen bytes that are not the header of a frame. -/
def noHeader : Bytes := List.replicate 16 0

theorem exists_encode_emptyFrame : ∃ b, emptyFrame.encode {} = .ok b := by
  have ran : (emptyFrame.encode {}).toOption.map (fun _ => ()) = some () := by
    rw [IpcFrame.encode, FrameFields.metadata, payloadSha256, Sha256.hexdigest_eq]
    decide +kernel
  obtain ⟨b, encoded, -⟩ := Except.exists_of_map_toOption ran
  exact ⟨b, encoded⟩

/-- A good frame that comes in the same chunk as a bad one is lost; on its own it is delivered. -/
theorem not_chunking : ¬ ∀ (limits : FrameLimits) (d : IpcFrameDecoder), IpcFrameDecoder.make limits = .ok d →
    ∀ s : Bytes, DeliversFrames d s ∧ ChunkingInvariant d s := by
  intro h
  obtain ⟨b, encoded⟩ := exists_encode_emptyFrame
  obtain ⟨-, same⟩ := h {} newDecoder rfl (b ++ noHeader)
  have good := nextFrame_encode encoded
  have bad : nextFrame {} noHeader = .bad (.ipcFrameError "invalid_magic" "frame magic is not supported") noHeader :=
    nextFrame_of_error (Nat.le_refl 16) rfl
  have behind : BadBehindGood {} (b ++ noHeader) :=
    ⟨[b], noHeader, _, _, List.cons_ne_nil _ _, fun p mem => List.mem_singleton.1 mem ▸ ⟨_, good⟩, by simp, bad⟩
  have alike : Chunks.Invariant (nextFrame {}) (b ++ noHeader) := by
    intro chunks chunks' whole whole'
    rw [← feedAll_of_make (d := newDecoder) rfl, ← feedAll_of_make (d := newDecoder) rfl]
    exact same chunks chunks' whole whole'
  exact (Chunks.invariant_iff_not_badBehind (lawful_nextFrame {})).1 alike behind

end Ipc

end SimplicioFast
