import SimplicioFast.Lib.Sha256

/-!
# Evaluating SHA-256

The same function on natural numbers, with every word evaluated as soon as it is made.  The kernel computes it far
faster than the function on bit vectors, so a digest of a fixed text is evaluated through `digest_eq`.
-/

namespace SimplicioFast

namespace Sha256

namespace Eval

/-- Continue with a number that is evaluated first. -/
def force {α : Type} (n : ℕ) (next : ℕ → α) : α := Nat.rec (next 0) (fun m _ => next (Nat.succ m)) n

@[simp] theorem force_eq {α : Type} (n : ℕ) (next : ℕ → α) : force n next = next n := by
  cases n <;> rfl

def wrap (n : ℕ) : ℕ := Nat.mod n 4294967296

/-- The rotation of a word to the right. -/
def rotate (i n : ℕ) : ℕ := Nat.lor (Nat.shiftRight n i) (Nat.mod (Nat.shiftLeft n (Nat.sub 32 i)) 4294967296)

/-- The eight working variables. -/
structure State where
  a : ℕ
  b : ℕ
  c : ℕ
  d : ℕ
  e : ℕ
  f : ℕ
  g : ℕ
  h : ℕ

/-- The word that the message schedule appends. -/
def nextWord (w : ℕ) (ws : List ℕ) : ℕ :=
  let x := ws.getD 0 0
  let y := ws.getD 13 0
  wrap (Nat.add (Nat.add (Nat.add
    (Nat.xor (Nat.xor (rotate 17 y) (rotate 19 y)) (Nat.shiftRight y 10)) (ws.getD 8 0))
    (Nat.xor (Nat.xor (rotate 7 x) (rotate 18 x)) (Nat.shiftRight x 3))) w)

def sum₁ (e f g h k w : ℕ) : ℕ :=
  Nat.add (Nat.add (Nat.add (Nat.add h (Nat.xor (Nat.xor (rotate 6 e) (rotate 11 e)) (rotate 25 e)))
    (Nat.xor (Nat.land e f) (Nat.land (Nat.sub 4294967295 e) g))) k) w

def sum₀ (a b c : ℕ) : ℕ :=
  Nat.add (Nat.xor (Nat.xor (rotate 2 a) (rotate 13 a)) (rotate 22 a))
    (Nat.xor (Nat.xor (Nat.land a b) (Nat.land a c)) (Nat.land b c))

/-- The rounds with the given constants. -/
def rounds : List ℕ → List ℕ → State → State
  | k :: ks, w :: ws, ⟨a, b, c, d, e, f, g, h⟩ =>
    force (nextWord w ws) fun next => force (sum₁ e f g h k w) fun t =>
      force (wrap (Nat.add t (sum₀ a b c))) fun a' => force (wrap (Nat.add d t)) fun e' =>
        rounds ks (ws ++ [next]) ⟨a', a, b, c, e', e, f, g⟩
  | _, _, s => s

def constants : List ℕ := roundConstants.map BitVec.toNat

def add : State → State → State
  | ⟨a, b, c, d, e, f, g, h⟩, ⟨a', b', c', d', e', f', g', h'⟩ =>
    force (wrap (Nat.add a a')) fun a => force (wrap (Nat.add b b')) fun b =>
      force (wrap (Nat.add c c')) fun c => force (wrap (Nat.add d d')) fun d =>
        force (wrap (Nat.add e e')) fun e => force (wrap (Nat.add f f')) fun f =>
          force (wrap (Nat.add g g')) fun g => force (wrap (Nat.add h h')) fun h =>
            ⟨a, b, c, d, e, f, g, h⟩

/-- The hash value after the first `n` blocks of the words. -/
def compressBlocks : ℕ → List ℕ → State → State
  | 0, _, s => s
  | n + 1, ws, s => compressBlocks n (ws.drop 16) (add s (rounds constants (ws.take 16) s))

/-- The big-endian words of a byte string. -/
def words : Bytes → List ℕ
  | a :: b :: c :: d :: rest => force (Bytes.unpackBE [a, b, c, d]) fun w => w :: words rest
  | _ => []

def ofState (s : Sha256.State) : State :=
  ⟨s.a.toNat, s.b.toNat, s.c.toNat, s.d.toNat, s.e.toNat, s.f.toNat, s.g.toNat, s.h.toNat⟩

def digest (b : Bytes) : Bytes :=
  let s := compressBlocks ((b.length + 72) / 64) (words (pad b)) (ofState initial)
  [s.a, s.b, s.c, s.d, s.e, s.f, s.g, s.h].flatMap (Bytes.packBE 4)

/-! ## The same function -/

theorem toNat_rotateRight (w : Word) (i : ℕ) (small : i < 32) : (w.rotateRight i).toNat = rotate i w.toNat := by
  rw [BitVec.toNat_rotateRight, Nat.mod_eq_of_lt small]
  rfl

theorem getD_map_toNat (ws : List Word) (i : ℕ) : (ws.map BitVec.toNat).getD i 0 = (ws.getD i 0).toNat := by
  rw [List.getD_eq_getElem?_getD, List.getD_eq_getElem?_getD, List.getElem?_map]
  cases ws[i]? <;> rfl

theorem toNat_nextWord (w : Word) (ws : List Word) :
    (Sha256.nextWord w ws).toNat = nextWord w.toNat (ws.map BitVec.toNat) := by
  have sum (p q r s : ℕ) : (((p + q) % 2 ^ 32 + r) % 2 ^ 32 + s) % 2 ^ 32 = wrap (Nat.add (Nat.add (Nat.add p q) r) s) := by
    show _ = (p + q + r + s) % 2 ^ 32
    omega
  unfold Sha256.nextWord nextWord
  simp only [getD_map_toNat, BitVec.toNat_add, BitVec.toNat_xor, BitVec.toNat_ushiftRight,
    toNat_rotateRight _ _ (show 17 < 32 by decide), toNat_rotateRight _ _ (show 19 < 32 by decide),
    toNat_rotateRight _ _ (show 7 < 32 by decide), toNat_rotateRight _ _ (show 18 < 32 by decide)]
  exact sum _ _ _ _

theorem ofState_round (s : Sha256.State) (k w : Word) : ofState (round s k w) =
    ⟨wrap (Nat.add (sum₁ s.e.toNat s.f.toNat s.g.toNat s.h.toNat k.toNat w.toNat) (sum₀ s.a.toNat s.b.toNat s.c.toNat)),
      s.a.toNat, s.b.toNat, s.c.toNat,
      wrap (Nat.add s.d.toNat (sum₁ s.e.toNat s.f.toNat s.g.toNat s.h.toNat k.toNat w.toNat)),
      s.e.toNat, s.f.toNat, s.g.toNat⟩ := by
  have first (h p q k w x y : ℕ) : ((((((h + p) % 2 ^ 32 + q) % 2 ^ 32 + k) % 2 ^ 32 + w) % 2 ^ 32 +
      (x + y) % 2 ^ 32) % 2 ^ 32) = wrap (Nat.add (Nat.add (Nat.add (Nat.add (Nat.add h p) q) k) w) (Nat.add x y)) := by
    show _ = (h + p + q + k + w + (x + y)) % 2 ^ 32
    omega
  have second (d h p q k w : ℕ) : (d + ((((h + p) % 2 ^ 32 + q) % 2 ^ 32 + k) % 2 ^ 32 + w) % 2 ^ 32) % 2 ^ 32 =
      wrap (Nat.add d (Nat.add (Nat.add (Nat.add (Nat.add h p) q) k) w)) := by
    show _ = (d + (h + p + q + k + w)) % 2 ^ 32
    omega
  unfold ofState round sum₀ sum₁
  simp only [BitVec.toNat_add, BitVec.toNat_xor, BitVec.toNat_and, BitVec.toNat_not,
    toNat_rotateRight _ _ (show 6 < 32 by decide), toNat_rotateRight _ _ (show 11 < 32 by decide),
    toNat_rotateRight _ _ (show 25 < 32 by decide), toNat_rotateRight _ _ (show 2 < 32 by decide),
    toNat_rotateRight _ _ (show 13 < 32 by decide), toNat_rotateRight _ _ (show 22 < 32 by decide)]
  congr 1
  · exact first _ _ _ _ _ _ _
  · exact second _ _ _ _ _ _

theorem ofState_rounds (ks ws : List Word) (s : Sha256.State) :
    ofState (Sha256.rounds ks ws s) = rounds (ks.map BitVec.toNat) (ws.map BitVec.toNat) (ofState s) := by
  induction ks generalizing ws s with
  | nil => rfl
  | cons k ks ih =>
    cases ws with
    | nil => rfl
    | cons w ws =>
      have next : (ws ++ [Sha256.nextWord w ws]).map BitVec.toNat =
          ws.map BitVec.toNat ++ [nextWord w.toNat (ws.map BitVec.toNat)] := by
        rw [List.map_append, List.map_singleton, toNat_nextWord]
      rw [Sha256.rounds, ih, ofState_round, next]
      simp only [List.map_cons, rounds, ofState, force_eq]

theorem ofState_compress (s : Sha256.State) (block : List Word) : ofState (compress s block) =
    add (ofState s) (rounds constants (block.map BitVec.toNat) (ofState s)) := by
  rw [constants, ← ofState_rounds]
  unfold compress add ofState
  simp only [force_eq, BitVec.toNat_add]
  rfl

theorem ofState_compressBlocks (n : ℕ) (ws : List Word) (s : Sha256.State) :
    ofState (Sha256.compressBlocks n ws s) = compressBlocks n (ws.map BitVec.toNat) (ofState s) := by
  induction n generalizing ws s with
  | zero => rfl
  | succ n ih =>
    rw [Sha256.compressBlocks, compressBlocks, ih, ofState_compress, List.map_drop, List.map_take]

theorem map_toNat_words (b : Bytes) : (Sha256.words b).map BitVec.toNat = words b := by
  induction b using Sha256.words.induct with
  | case1 x y z t rest ih =>
    have small : Bytes.unpackBE [x, y, z, t] < 2 ^ 32 :=
      (Bytes.unpackBE_lt [x, y, z, t]).trans_eq (show 256 ^ 4 = 2 ^ 32 by decide)
    rw [Sha256.words, words, force_eq, List.map_cons, ih, BitVec.toNat_ofNat, Nat.mod_eq_of_lt small]
  | case2 b short => rw [Sha256.words.eq_2 b short, words.eq_2 b short, List.map_nil]

end Eval

/-! ## Unrolled

The window of the message schedule and the working variables are arguments of one function for each round, so that no
list is built. -/

namespace Eval

variable (w₀ w₁ w₂ w₃ w₄ w₅ w₆ w₇ w₈ w₉ w₁₀ w₁₁ w₁₂ w₁₃ w₁₄ w₁₅ a b c d e f g h : ℕ)

/-- One round on a window of 16 words; `go` does the others. -/
def turn (go : ℕ → ℕ → ℕ → ℕ → ℕ → ℕ → ℕ → ℕ → ℕ → ℕ → ℕ → ℕ → ℕ → ℕ → ℕ → ℕ →
    ℕ → ℕ → ℕ → ℕ → ℕ → ℕ → ℕ → ℕ → State) (k : ℕ) : State :=
  force (wrap (Nat.add (Nat.add (Nat.add
    (Nat.xor (Nat.xor (rotate 17 w₁₄) (rotate 19 w₁₄)) (Nat.shiftRight w₁₄ 10)) w₉)
    (Nat.xor (Nat.xor (rotate 7 w₁) (rotate 18 w₁)) (Nat.shiftRight w₁ 3))) w₀)) fun next =>
  force (sum₁ e f g h k w₀) fun t => force (wrap (Nat.add t (sum₀ a b c))) fun a' =>
  force (wrap (Nat.add d t)) fun e' =>
    go w₁ w₂ w₃ w₄ w₅ w₆ w₇ w₈ w₉ w₁₀ w₁₁ w₁₂ w₁₃ w₁₄ w₁₅ next a' a b c e' e f g

/-- The rounds with the given constants. -/
def turns (ks : List ℕ) : ℕ → ℕ → ℕ → ℕ → ℕ → ℕ → ℕ → ℕ → ℕ → ℕ → ℕ → ℕ → ℕ → ℕ → ℕ → ℕ →
    ℕ → ℕ → ℕ → ℕ → ℕ → ℕ → ℕ → ℕ → State :=
  List.rec (fun _ _ _ _ _ _ _ _ _ _ _ _ _ _ _ _ a b c d e f g h => ⟨a, b, c, d, e, f, g, h⟩)
    (fun k _ go w₀ w₁ w₂ w₃ w₄ w₅ w₆ w₇ w₈ w₉ w₁₀ w₁₁ w₁₂ w₁₃ w₁₄ w₁₅ a b c d e f g h =>
      turn w₀ w₁ w₂ w₃ w₄ w₅ w₆ w₇ w₈ w₉ w₁₀ w₁₁ w₁₂ w₁₃ w₁₄ w₁₅ a b c d e f g h go k) ks

theorem turns_eq (ks : List ℕ) : turns ks w₀ w₁ w₂ w₃ w₄ w₅ w₆ w₇ w₈ w₉ w₁₀ w₁₁ w₁₂ w₁₃ w₁₄ w₁₅ a b c d e f g h =
    rounds ks [w₀, w₁, w₂, w₃, w₄, w₅, w₆, w₇, w₈, w₉, w₁₀, w₁₁, w₁₂, w₁₃, w₁₄, w₁₅] ⟨a, b, c, d, e, f, g, h⟩ := by
  induction ks generalizing w₀ w₁ w₂ w₃ w₄ w₅ w₆ w₇ w₈ w₉ w₁₀ w₁₁ w₁₂ w₁₃ w₁₄ w₁₅ a b c d e f g h with
  | nil => rfl
  | cons k ks ih =>
    show turn w₀ w₁ w₂ w₃ w₄ w₅ w₆ w₇ w₈ w₉ w₁₀ w₁₁ w₁₂ w₁₃ w₁₄ w₁₅ a b c d e f g h (turns ks) k = _
    rw [turn, rounds]
    simp only [force_eq, ih]
    rfl

/-- The hash value after the first `n` blocks of the words, block by block. -/
def blocks : ℕ → List ℕ → State → State
  | n + 1, w₀ :: w₁ :: w₂ :: w₃ :: w₄ :: w₅ :: w₆ :: w₇ :: w₈ :: w₉ :: w₁₀ :: w₁₁ :: w₁₂ :: w₁₃ :: w₁₄ :: w₁₅ :: ws,
      ⟨a, b, c, d, e, f, g, h⟩ =>
    blocks n ws (add ⟨a, b, c, d, e, f, g, h⟩
      (turns constants w₀ w₁ w₂ w₃ w₄ w₅ w₆ w₇ w₈ w₉ w₁₀ w₁₁ w₁₂ w₁₃ w₁₄ w₁₅ a b c d e f g h))
  | n, ws, s => compressBlocks n ws s

theorem blocks_eq (n : ℕ) (ws : List ℕ) (s : State) : blocks n ws s = compressBlocks n ws s := by
  fun_induction blocks n ws s with
  | case1 => simp_all only [turns_eq]; rfl
  | case2 => rfl

/-- The digest of a byte string, unrolled. -/
def run (b : Bytes) : Bytes :=
  let s := blocks ((b.length + 72) / 64) (words (pad b)) (ofState initial)
  [s.a, s.b, s.c, s.d, s.e, s.f, s.g, s.h].flatMap (Bytes.packBE 4)

end Eval

theorem digest_eq (b : Bytes) : digest b = Eval.run b := by
  unfold digest Eval.run
  rw [Eval.blocks_eq, ← Eval.map_toNat_words, ← Eval.ofState_compressBlocks]
  rfl

theorem hexdigest_eq (b : Bytes) : hexdigest b = Bytes.hex (Eval.run b) := by
  rw [hexdigest, digest_eq]

example : hexdigest [0x61, 0x62, 0x63] =
    "ba7816bf8f01cfea414140de5dae2223b00361a396177a9cb410ff61f20015ad".toList := by
  rw [hexdigest_eq]
  decide +kernel

end Sha256

end SimplicioFast
