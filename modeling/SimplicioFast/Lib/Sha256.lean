import SimplicioFast.Lib.Bytes

/-!
# SHA-256

The SHA-256 hash function on byte strings, executable in the kernel.  Nothing below assumes that it is injective: the
developments that rely on the absence of collisions say so about the texts that they hash.
-/

namespace SimplicioFast

namespace Sha256

/-- A word of the hash state. -/
abbrev Word := BitVec 32

/-- The eight working variables. -/
structure State where
  a : Word
  b : Word
  c : Word
  d : Word
  e : Word
  f : Word
  g : Word
  h : Word

def initial : State :=
  ⟨0x6a09e667, 0xbb67ae85, 0x3c6ef372, 0xa54ff53a, 0x510e527f, 0x9b05688c, 0x1f83d9ab, 0x5be0cd19⟩

def roundConstants : List Word :=
  [0x428a2f98, 0x71374491, 0xb5c0fbcf, 0xe9b5dba5, 0x3956c25b, 0x59f111f1, 0x923f82a4, 0xab1c5ed5,
    0xd807aa98, 0x12835b01, 0x243185be, 0x550c7dc3, 0x72be5d74, 0x80deb1fe, 0x9bdc06a7, 0xc19bf174,
    0xe49b69c1, 0xefbe4786, 0x0fc19dc6, 0x240ca1cc, 0x2de92c6f, 0x4a7484aa, 0x5cb0a9dc, 0x76f988da,
    0x983e5152, 0xa831c66d, 0xb00327c8, 0xbf597fc7, 0xc6e00bf3, 0xd5a79147, 0x06ca6351, 0x14292967,
    0x27b70a85, 0x2e1b2138, 0x4d2c6dfc, 0x53380d13, 0x650a7354, 0x766a0abb, 0x81c2c92e, 0x92722c85,
    0xa2bfe8a1, 0xa81a664b, 0xc24b8b70, 0xc76c51a3, 0xd192e819, 0xd6990624, 0xf40e3585, 0x106aa070,
    0x19a4c116, 0x1e376c08, 0x2748774c, 0x34b0bcb5, 0x391c0cb3, 0x4ed8aa4a, 0x5b9cca4f, 0x682e6ff3,
    0x748f82ee, 0x78a5636f, 0x84c87814, 0x8cc70208, 0x90befffa, 0xa4506ceb, 0xbef9a3f7, 0xc67178f2]

/-- One round, with its constant and its word of the message schedule. -/
def round (s : State) (k w : Word) : State :=
  let sum₁ := s.e.rotateRight 6 ^^^ s.e.rotateRight 11 ^^^ s.e.rotateRight 25
  let choice := (s.e &&& s.f) ^^^ (~~~s.e &&& s.g)
  let t₁ := s.h + sum₁ + choice + k + w
  let sum₀ := s.a.rotateRight 2 ^^^ s.a.rotateRight 13 ^^^ s.a.rotateRight 22
  let majority := (s.a &&& s.b) ^^^ (s.a &&& s.c) ^^^ (s.b &&& s.c)
  ⟨t₁ + (sum₀ + majority), s.a, s.b, s.c, s.d + t₁, s.e, s.f, s.g⟩

/-- The word that the message schedule appends to a window of the word `w` and the 15 words `ws`
after it. -/
def nextWord (w : Word) (ws : List Word) : Word :=
  let x := ws.getD 0 0
  let y := ws.getD 13 0
  (y.rotateRight 17 ^^^ y.rotateRight 19 ^^^ y >>> 10) + ws.getD 8 0 +
    (x.rotateRight 7 ^^^ x.rotateRight 18 ^^^ x >>> 3) + w

/-- The rounds with the given constants; `ws` is the window of the message schedule. -/
def rounds : List Word → List Word → State → State
  | k :: ks, w :: ws, s => rounds ks (ws ++ [nextWord w ws]) (round s k w)
  | _, _, s => s

/-- The hash value after one more block. -/
def compress (s : State) (block : List Word) : State :=
  let t := rounds roundConstants block s
  ⟨s.a + t.a, s.b + t.b, s.c + t.c, s.d + t.d, s.e + t.e, s.f + t.f, s.g + t.g, s.h + t.h⟩

/-- The hash value after the first `n` blocks of the words. -/
def compressBlocks : ℕ → List Word → State → State
  | 0, _, s => s
  | n + 1, ws, s => compressBlocks n (ws.drop 16) (compress s (ws.take 16))

/-- The message with its padding: a one bit, zeros, and the length in bits. -/
def pad (b : Bytes) : Bytes :=
  b ++ 0x80 :: List.replicate ((119 - b.length % 64) % 64) 0 ++ Bytes.packBE 8 (8 * b.length)

/-- The big-endian words of a byte string. -/
def words : Bytes → List Word
  | a :: b :: c :: d :: rest => BitVec.ofNat 32 (Bytes.unpackBE [a, b, c, d]) :: words rest
  | _ => []

/-- `hashlib.sha256(b).digest()`. -/
def digest (b : Bytes) : Bytes :=
  let s := compressBlocks ((b.length + 72) / 64) (words (pad b)) initial
  [s.a, s.b, s.c, s.d, s.e, s.f, s.g, s.h].flatMap fun w => Bytes.packBE 4 w.toNat

/-- `hashlib.sha256(b).hexdigest()`. -/
def hexdigest (b : Bytes) : List Char := Bytes.hex (digest b)

@[simp] theorem length_digest (b : Bytes) : (digest b).length = 32 := by
  simp only [digest, List.length_flatMap, Bytes.length_packBE, List.map_cons, List.map_nil,
    List.sum_cons, List.sum_nil, Nat.reduceAdd]

@[simp] theorem length_hexdigest (b : Bytes) : (hexdigest b).length = 64 := by
  rw [hexdigest, Bytes.length_hex, length_digest]

theorem forall_mem_hexdigest {P : Char → Prop} (digits : ∀ n < 16, P (Bytes.hexDigit n)) (b : Bytes) :
    ∀ c ∈ hexdigest b, P c := by
  intro c mem
  obtain ⟨x, -, inside⟩ := List.mem_flatMap.1 mem
  have small := x.toNat_lt
  rcases List.mem_cons.1 inside with rfl | inside
  · exact digits (x.toNat / 16) (by omega)
  · rw [List.mem_singleton.1 inside]
    exact digits (x.toNat % 16) (by omega)

theorem hexdigest_inj {b c : Bytes} : hexdigest b = hexdigest c ↔ digest b = digest c :=
  Bytes.hex_injective.eq_iff

end Sha256

end SimplicioFast
