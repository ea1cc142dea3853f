import SimplicioFast.Lib.Reread

/-!
# JSON documents as bytes

`json.loads` of a byte string looks at the first bytes to find out which of UTF-8, UTF-16 and UTF-32 it is, and decodes
it with the error handler `surrogatepass`, which lets single surrogates through.  A byte string that cannot be decoded
raises `UnicodeDecodeError`, a text that is not a JSON document `JSONDecodeError`.
-/

namespace SimplicioFast

namespace PyStr

/-- `b.decode("utf-8", "surrogatepass")`. -/
def decode8 : Bytes → Option PyStr
  | [] => some []
  | b₀ :: rest =>
    if b₀.toNat < 0x80 then (decode8 rest).map (.scalar (Char.ofNat b₀.toNat) :: ·)
    else match rest with
    | [] => none
    | b₁ :: rest =>
      if isTail b₁ = false then none
      else if 0xC2 ≤ b₀.toNat ∧ b₀.toNat < 0xE0 then
        (decode8 rest).map (.scalar (Char.ofNat ((b₀.toNat - 0xC0) * 64 + (b₁.toNat - 0x80))) :: ·)
      else match rest with
      | [] => none
      | b₂ :: rest =>
        if isTail b₂ = false then none
        else if 0xE0 ≤ b₀.toNat ∧ b₀.toNat < 0xF0 then
          let n := (b₀.toNat - 0xE0) * 4096 + (b₁.toNat - 0x80) * 64 + (b₂.toNat - 0x80)
          -- three bytes below 0x800 are overlong; the surrogates are let through
          if 0x800 ≤ n then (decode8 rest).map (Json.charOfCode n :: ·) else none
        else match rest with
        | [] => none
        | b₃ :: rest =>
          let n := (b₀.toNat - 0xF0) * 262144 + (b₁.toNat - 0x80) * 4096 +
            (b₂.toNat - 0x80) * 64 + (b₃.toNat - 0x80)
          if isTail b₃ = false then none
          else if 0xF0 ≤ b₀.toNat ∧ isFour n then (decode8 rest).map (.scalar (Char.ofNat n) :: ·)
          else none

def unitOf (bigEndian : Bool) (b : Bytes) : ℕ := if bigEndian then Bytes.unpackBE b else Bytes.unpackLE b

def units16 (bigEndian : Bool) : Bytes → Option (List ℕ)
  | [] => some []
  | a :: b :: rest => (units16 bigEndian rest).map (unitOf bigEndian [a, b] :: ·)
  | _ => none

def units32 (bigEndian : Bool) : Bytes → Option (List ℕ)
  | [] => some []
  | a :: b :: c :: d :: rest => (units32 bigEndian rest).map (unitOf bigEndian [a, b, c, d] :: ·)
  | _ => none

/-- `b.decode("utf-16-be", "surrogatepass")` and the other byte order. -/
def decode16 (bigEndian : Bool) (b : Bytes) : Option PyStr :=
  (units16 bigEndian b).map fun us => joinPairs (us.map Json.charOfCode)

/-- `b.decode("utf-32-be", "surrogatepass")` and the other byte order. -/
def decode32 (bigEndian : Bool) (b : Bytes) : Option PyStr :=
  (units32 bigEndian b).bind fun us =>
    if us.all (· < 0x110000) then some (us.map Json.charOfCode) else none

/-- `b.decode(detect_encoding(b), "surrogatepass")`. -/
def decodeDetected (b : Bytes) : Option PyStr :=
  if ([0x00, 0x00, 0xFE, 0xFF] : Bytes).isPrefixOf b then decode32 true (b.drop 4)
  else if ([0xFF, 0xFE, 0x00, 0x00] : Bytes).isPrefixOf b then decode32 false (b.drop 4)
  else if ([0xFE, 0xFF] : Bytes).isPrefixOf b then decode16 true (b.drop 2)
  else if ([0xFF, 0xFE] : Bytes).isPrefixOf b then decode16 false (b.drop 2)
  else if ([0xEF, 0xBB, 0xBF] : Bytes).isPrefixOf b then decode8 (b.drop 3)
  else match b with
  | b₀ :: b₁ :: b₂ :: b₃ :: _ =>
    if b₀ = 0 then if b₁ = 0 then decode32 true b else decode16 true b
    else if b₁ = 0 then if b₂ = 0 ∧ b₃ = 0 then decode32 false b else decode16 false b
    else decode8 b
  | [b₀, b₁] =>
    if b₀ = 0 then decode16 true b
    else if b₁ = 0 then decode16 false b
    else decode8 b
  | _ => decode8 b

theorem decode8_of_ascii {s : PyStr} (h : ∀ c ∈ s, c.code < 128) : decode8 s.encodeAscii = some s := by
  induction s with
  | nil => rfl
  | cons c s ih =>
    obtain ⟨small, rest⟩ := List.forall_mem_cons.1 h
    cases c with
    | surrogate n =>
      have : (PyChar.surrogate n).code = 0xD800 + n := rfl
      omega
    | scalar d =>
      have low : d.toNat < 128 := small
      have code : (UInt8.ofNat d.toNat).toNat = d.toNat := toNat_ofNat_of_lt (by omega)
      show decode8 (UInt8.ofNat d.toNat :: encodeAscii s) = _
      rw [decode8.eq_def]
      simp only [code, if_pos low, ih rest, Char.ofNat_toNat, Option.map_some]

theorem decode8_encodeCode (c : Char) (rest : Bytes) :
    decode8 (encodeCode c.toNat ++ rest) = (decode8 rest).map (.scalar c :: ·) := by
  have hc := PyChar.toNat_scalar c
  have roundTrip {n : ℕ} (h : n = c.toNat) : Char.ofNat n = c := by rw [h, Char.ofNat_toNat]
  unfold encodeCode
  split_ifs with h₁ h₂ h₃
  · rw [List.singleton_append, decode8.eq_def]
    simp only [toNat_ofNat_of_lt (by omega : c.toNat < 256), if_pos h₁, roundTrip rfl]
  · have lead := toNat_ofNat_of_lt (by omega : 0xC0 + c.toNat / 64 < 256)
    have value : (0xC0 + c.toNat / 64 - 0xC0) * 64 + (0x80 + c.toNat % 64 - 0x80) = c.toNat := by
      omega
    simp only [List.cons_append, List.nil_append]
    rw [decode8.eq_def]
    simp only [lead, isTail_tail, toNat_tail, Bool.true_eq_false, if_false, value, roundTrip]
    rw [if_neg (by omega), if_pos (by omega)]
  · have lead := toNat_ofNat_of_lt (by omega : 0xE0 + c.toNat / 4096 < 256)
    have value : (0xE0 + c.toNat / 4096 - 0xE0) * 4096 + (0x80 + c.toNat / 64 % 64 - 0x80) * 64 +
        (0x80 + c.toNat % 64 - 0x80) = c.toNat := by omega
    have code : Json.charOfCode c.toNat = .scalar c := Json.charOfCode_code (.scalar c)
    simp only [List.cons_append, List.nil_append]
    rw [decode8.eq_def]
    simp only [lead, isTail_tail, toNat_tail, Bool.true_eq_false, if_false, value, code]
    rw [if_neg (by omega), if_neg (by omega), if_pos (by omega), if_pos (by omega)]
  · have lead := toNat_ofNat_of_lt (by omega : 0xF0 + c.toNat / 262144 < 256)
    have value : (0xF0 + c.toNat / 262144 - 0xF0) * 262144 +
        (0x80 + c.toNat / 4096 % 64 - 0x80) * 4096 + (0x80 + c.toNat / 64 % 64 - 0x80) * 64 +
        (0x80 + c.toNat % 64 - 0x80) = c.toNat := by omega
    have four : isFour c.toNat = true := by
      simp only [isFour, Bool.and_eq_true, decide_eq_true_eq]
      omega
    simp only [List.cons_append, List.nil_append]
    rw [decode8.eq_def]
    simp only [lead, isTail_tail, toNat_tail, Bool.true_eq_false, if_false, value, four, and_true,
      roundTrip]
    rw [if_neg (by omega), if_neg (by omega), if_neg (by omega), if_pos (by omega)]

theorem decode8_encode {s : PyStr} {b : Bytes} (h : encode s = some b) : decode8 b = some s := by
  obtain ⟨l, scalars, rfl⟩ := Option.map_eq_some_iff.1 h
  rw [(chars?_eq_some_iff s l).1 scalars]
  clear scalars h
  induction l with
  | nil => rfl
  | cons c l ih =>
    rw [List.flatMap_cons, decode8_encodeCode, ih]
    rfl

theorem decodeDetected_of_start {c d : Char} {s : PyStr} {b : Bytes} (hc : 0 < c.toNat ∧ c.toNat < 128)
    (hd : 0 < d.toNat ∧ d.toNat < 128) (encoded : encode (.scalar c :: .scalar d :: s) = some b) :
    decodeDetected b = some (.scalar c :: .scalar d :: s) := by
  have text := decode8_encode encoded
  obtain ⟨l, scalars, rfl⟩ := Option.map_eq_some_iff.1 encoded
  obtain ⟨l, rfl⟩ : ∃ l', l = c :: d :: l' := by
    have same := (chars?_eq_some_iff _ l).1 scalars
    match l, same with
    | c' :: d' :: l', same =>
      obtain ⟨first, second, -⟩ : c = c' ∧ d = d' ∧ s = ofChars l' := by simpa [ofChars] using same
      exact ⟨l', by rw [first, second]⟩
  have first : (UInt8.ofNat c.toNat).toNat = c.toNat := toNat_ofNat_of_lt (by omega)
  have second : (UInt8.ofNat d.toNat).toNat = d.toNat := toNat_ofNat_of_lt (by omega)
  have bytes : (c :: d :: l).flatMap (fun c => encodeCode c.toNat) =
      UInt8.ofNat c.toNat :: UInt8.ofNat d.toNat :: l.flatMap fun c => encodeCode c.toNat := by
    rw [List.flatMap_cons, List.flatMap_cons, encodeCode, if_pos hc.2, encodeCode, if_pos hd.2]
    rfl
  rw [bytes] at text ⊢
  generalize l.flatMap (fun c => encodeCode c.toNat) = rest at text
  have other (x : UInt8) (more : Bytes) (far : x.toNat = 0 ∨ 128 ≤ x.toNat) :
      ¬ (x :: more).isPrefixOf (UInt8.ofNat c.toNat :: UInt8.ofNat d.toNat :: rest) = true := by
    rw [List.isPrefixOf, Bool.and_eq_true, beq_iff_eq]
    rintro ⟨rfl, -⟩
    omega
  have nonzero {x : UInt8} (pos : 0 < x.toNat) : x ≠ 0 := by
    rintro rfl
    exact absurd pos (by decide)
  unfold decodeDetected
  rw [if_neg (other _ _ (by decide)), if_neg (other _ _ (by decide)), if_neg (other _ _ (by decide)),
    if_neg (other _ _ (by decide)), if_neg (other _ _ (by decide))]
  have firstNonzero := nonzero (first.symm ▸ hc.1)
  have secondNonzero := nonzero (second.symm ▸ hd.1)
  split
  · rename_i lead
    obtain ⟨rfl, rfl, -⟩ := List.cons.inj lead |>.imp_right fun rest => List.cons.inj rest
    rw [if_neg firstNonzero, if_neg secondNonzero]
    exact text
  · rename_i lead
    obtain ⟨rfl, rfl, -⟩ := List.cons.inj lead |>.imp_right fun rest => List.cons.inj rest
    rw [if_neg firstNonzero, if_neg secondNonzero]
    exact text
  · exact text

theorem decodeDetected_of_printable {s : PyStr} (h : ∀ c ∈ s, 32 ≤ c.code ∧ c.code < 128) :
    decodeDetected s.encodeAscii = some s := by
  have bytes : ∀ b ∈ s.encodeAscii, 32 ≤ b.toNat ∧ b.toNat < 128 := by
    intro b mem
    obtain ⟨c, inside, rfl⟩ := List.mem_map.1 mem
    have printable := h c inside
    rw [toNat_ofNat_of_lt (by omega)]
    exact printable
  have text := decode8_of_ascii fun c mem => (h c mem).2
  have mark (first : UInt8) (more : Bytes) (other : first.toNat < 32 ∨ 128 ≤ first.toNat) :
      ¬ (first :: more).isPrefixOf s.encodeAscii = true := by
    intro e
    cases lead : s.encodeAscii with
    | nil =>
      rw [lead] at e
      cases e
    | cons b rest =>
      rw [lead, List.isPrefixOf, Bool.and_eq_true, beq_iff_eq] at e
      have range := bytes b (by rw [lead]; exact List.mem_cons_self)
      rw [← e.1] at range
      omega
  have nonzero {b : UInt8} (mem : b ∈ s.encodeAscii) : b ≠ 0 := by
    rintro rfl
    have range := bytes 0 mem
    have : (0 : UInt8).toNat = 0 := rfl
    omega
  unfold decodeDetected
  rw [if_neg (mark _ _ (by decide)), if_neg (mark _ _ (by decide)), if_neg (mark _ _ (by decide)),
    if_neg (mark _ _ (by decide)), if_neg (mark _ _ (by decide))]
  split
  · rename_i lead
    rw [if_neg (nonzero (by rw [lead]; simp)), if_neg (nonzero (by rw [lead]; simp))]
    exact text
  · rename_i lead
    rw [if_neg (nonzero (by rw [lead]; simp)), if_neg (nonzero (by rw [lead]; simp))]
    exact text
  · exact text

end PyStr

namespace Json

/-- The exceptions of `json.loads` of bytes. -/
inductive LoadsRaised
  | jsonDecodeError
  | unicodeDecodeError
deriving DecidableEq

/-- `json.loads` of bytes. -/
def loadsBytes (b : Bytes) : Except LoadsRaised Json :=
  match PyStr.decodeDetected b with
  | none => .error .unicodeDecodeError
  | some text => match loads text with
    | none => .error .jsonDecodeError
    | some v => .ok v

theorem loadsBytes_dumps (v : Json) : loadsBytes (PyStr.encodeAscii (dumps true v)) = .ok (reread (sortKeys v)) := by
  have text : PyStr.decodeDetected (PyStr.encodeAscii (dumps true v)) = some (dumps true v) :=
    PyStr.decodeDetected_of_printable (printable_write (sortKeys v))
  rw [loadsBytes, text]
  dsimp only
  rw [loads_dumps_eq_reread]

end Json

end SimplicioFast
