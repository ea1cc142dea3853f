import SimplicioFast.Lib.Frames
import SimplicioFast.Lib.Text

/-!
# Lines of text

`str.replace`, `str.splitlines(keepends=True)`, `bytes.splitlines(keepends=True)` and the line endings of Python text.
-/

namespace SimplicioFast

namespace PyStr

/-- The scan of `str.replace`; `skip` counts the characters of the current match that are left. -/
def replaceFrom (old new : PyStr) : ℕ → PyStr → PyStr
  | _, [] => []
  | skip + 1, _ :: s => replaceFrom old new skip s
  | 0, c :: s =>
    if old.isPrefixOf (c :: s) then new ++ replaceFrom old new (old.length - 1) s
    else c :: replaceFrom old new 0 s

/-- `s.replace(old, new)` for a non-empty `old`. -/
def replace (old new s : PyStr) : PyStr := replaceFrom old new 0 s

/-- The text with every line ending written as a line feed. -/
def normalizeNewlines (s : PyStr) : PyStr := replace "\r" "\n" (replace "\r\n" "\n" s)

/-- Whether the character ends a line for `str.splitlines`. -/
def isLineBreak : PyChar → Bool
  | .scalar c => c.toNat ∈ [0x0A, 0x0B, 0x0C, 0x0D, 0x1C, 0x1D, 0x1E, 0x85, 0x2028, 0x2029]
  | .surrogate _ => false

/-- The scan of `str.splitlines`; `line` is the current line, last character first. -/
def splitLinesFrom (line : PyStr) : PyStr → List PyStr
  | [] => if line = [] then [] else [line.reverse]
  | c :: s =>
    if isLineBreak c then
      if c = .scalar '\r' ∧ s.head? = some (.scalar '\n') then splitLinesFrom (c :: line) s
      else (c :: line).reverse :: splitLinesFrom [] s
    else splitLinesFrom (c :: line) s

/-- `s.splitlines(keepends=True)`. -/
def splitLines (s : PyStr) : List PyStr := splitLinesFrom [] s

/-- `s.endswith(("\n", "\r"))`. -/
def endsWithNewline (s : PyStr) : Bool :=
  s.getLast? = some (.scalar '\n') || s.getLast? = some (.scalar '\r')

/-- Whether `old` occurs in the text. -/
def contains (old s : PyStr) : Bool := s.tails.any fun t => old.isPrefixOf t

example : splitLines "a\r\nb\nc" = ["a\r\n", "b\n", "c"] := by decide +kernel

end PyStr

namespace Bytes

/-- The scan of `bytes.splitlines`; `line` is the current line, last byte first. -/
def splitLinesFrom (line : Bytes) : Bytes → List Bytes
  | [] => if line = [] then [] else [line.reverse]
  | b :: s =>
    if b = 10 then (b :: line).reverse :: splitLinesFrom [] s
    else if b = 13 then
      if s.head? = some 10 then splitLinesFrom (b :: line) s else (b :: line).reverse :: splitLinesFrom [] s
    else splitLinesFrom (b :: line) s

/-- `b.splitlines(keepends=True)`. -/
def splitLines (b : Bytes) : List Bytes := splitLinesFrom [] b

example : splitLines [97, 13, 10, 98] = [[97, 13, 10], [98]] := by simp [splitLines, splitLinesFrom]

variable {body rest line : Bytes}

theorem splitLinesFrom_append (plain : ∀ b ∈ body, b ≠ 10 ∧ b ≠ 13) :
    splitLinesFrom line (body ++ rest) = splitLinesFrom (body.reverse ++ line) rest := by
  induction body generalizing line with
  | nil => rfl
  | cons b body ih =>
    obtain ⟨⟨feed, ret⟩, plain⟩ := List.forall_mem_cons.1 plain
    rw [List.cons_append, splitLinesFrom, if_neg feed, if_neg ret, ih plain, List.reverse_cons, List.append_assoc]
    rfl

theorem splitLines_line (plain : ∀ b ∈ body, b ≠ 10 ∧ b ≠ 13) :
    splitLines (body ++ 10 :: rest) = (body ++ [10]) :: splitLines rest := by
  rw [splitLines, splitLinesFrom_append plain, splitLinesFrom, if_pos rfl, List.reverse_cons, List.append_nil,
    List.reverse_reverse]
  rfl

theorem flatten_splitLinesFrom (line b : Bytes) : (splitLinesFrom line b).flatten = line.reverse ++ b := by
  fun_induction splitLinesFrom line b with
  | case1 => rfl
  | case2 line nonempty => rw [List.flatten_singleton, List.append_nil]
  | case3 line s ih => simp [ih]
  | case4 line s _ _ ih => simp [ih]
  | case5 line s _ _ ih => simp [ih]
  | case6 line b s _ _ ih => simp [ih]

@[simp] theorem flatten_splitLines (b : Bytes) : (splitLines b).flatten = b := flatten_splitLinesFrom [] b

theorem lines_splitLinesFrom {b : Bytes} (feeds : 10 ∉ line) :
    ∀ l ∈ splitLinesFrom line b, l ≠ [] ∧ 10 ∉ l.dropLast := by
  fun_induction splitLinesFrom line b with
  | case1 => exact fun _ mem => by cases mem
  | case2 line nonempty =>
    rw [List.forall_mem_singleton]
    exact ⟨by simpa using nonempty, fun mem => feeds (List.mem_reverse.1 (List.dropLast_subset _ mem))⟩
  | case3 line s ih =>
    refine List.forall_mem_cons.2 ⟨⟨by simp, ?_⟩, ih (by simp)⟩
    rw [List.reverse_cons, List.dropLast_concat, List.mem_reverse]
    exact feeds
  | case4 line s _ _ ih => exact ih (by simpa using feeds)
  | case5 line s _ _ ih =>
    refine List.forall_mem_cons.2 ⟨⟨by simp, ?_⟩, ih (by simp)⟩
    rw [List.reverse_cons, List.dropLast_concat, List.mem_reverse]
    exact feeds
  | case6 line b s feed _ ih =>
    refine ih fun mem => ?_
    rcases List.mem_cons.1 mem with e | mem
    · exact feed e.symm
    · exact feeds mem

theorem lines_splitLines (b : Bytes) : ∀ l ∈ splitLines b, l ≠ [] ∧ 10 ∉ l.dropLast :=
  lines_splitLinesFrom (List.not_mem_nil)

theorem splitLinesFrom_cons (line : Bytes) (b : UInt8) (s : Bytes) :
    ∃ l ls, splitLinesFrom line (b :: s) = l :: ls ∧ line.length < l.length := by
  induction s generalizing line b with
  | nil =>
    refine ⟨(b :: line).reverse, [], ?_, by simp⟩
    rw [splitLinesFrom]
    split_ifs <;> simp_all [splitLinesFrom]
  | cons c s ih =>
    obtain ⟨l, ls, split, long⟩ := ih (b :: line) c
    rw [List.length_cons] at long
    rw [splitLinesFrom]
    split_ifs
    · exact ⟨_, _, rfl, by simp⟩
    · exact ⟨l, ls, split, by omega⟩
    · exact ⟨_, _, rfl, by simp⟩
    · exact ⟨l, ls, split, by omega⟩

theorem complete_splitLinesFrom (line : Bytes) (b : UInt8) (s : Bytes) :
    Frames.complete id line.length (splitLinesFrom line (b :: s)) = [] := by
  obtain ⟨l, ls, split, long⟩ := splitLinesFrom_cons line b s
  rw [split, Frames.complete, if_neg (by simpa using long)]

theorem splitLinesFrom_take (k : ℕ) (b : Bytes) (feeds : 10 ∉ line) :
    ∃ cut, splitLinesFrom line (b.take k) = Frames.complete id (line.length + k) (splitLinesFrom line b) ++
      (if cut = [] then [] else [cut]) ∧ 10 ∉ cut := by
  -- the bytes that are left decide how the scan goes on, and `k = 0` ends it inside the current line
  have stop (line : Bytes) (c : UInt8) (s : Bytes) (feeds : 10 ∉ line) :
      ∃ cut, splitLinesFrom line [] = Frames.complete id line.length (splitLinesFrom line (c :: s)) ++
        (if cut = [] then [] else [cut]) ∧ 10 ∉ cut := by
    refine ⟨line.reverse, ?_, by simpa using feeds⟩
    rw [complete_splitLinesFrom, splitLinesFrom, List.nil_append]
    simp only [List.reverse_eq_nil_iff]
  have noFeed : 10 ∉ ([] : Bytes) := List.not_mem_nil
  induction b generalizing line k with
  | nil =>
    refine ⟨[], ?_, by simp⟩
    rw [List.take_nil, splitLinesFrom, if_pos rfl, List.append_nil]
    split_ifs
    · rfl
    · rw [Frames.complete, if_pos (by simp), Frames.complete]
  | cons c s ih =>
    cases k with
    | zero => exact stop line c s feeds
    | succ k =>
      rw [List.take_succ_cons, splitLinesFrom, splitLinesFrom]
      have ended (l : Bytes) (size : l.length = line.length + 1) :
          Frames.complete id (line.length + (k + 1)) (l :: splitLinesFrom [] s) =
            l :: Frames.complete id ((([] : Bytes).length) + k) (splitLinesFrom [] s) := by
        have fits : (id l).length ≤ line.length + (k + 1) := by
          rw [id_eq, size]
          omega
        have left : line.length + (k + 1) - (id l).length = ([] : Bytes).length + k := by
          rw [id_eq, size, List.length_nil]
          omega
        rw [Frames.complete, if_pos fits, left]
      by_cases feed : c = 10
      · rw [if_pos feed, if_pos feed]
        obtain ⟨cut, split, plain⟩ := ih k noFeed
        exact ⟨cut, by rw [split, ended _ (by simp)]; rfl, plain⟩
      · have feeds' : 10 ∉ c :: line := fun mem => by
          rcases List.mem_cons.1 mem with e | mem
          · exact feed e.symm
          · exact feeds mem
        have grown : line.length + (k + 1) = (c :: line).length + k := by
          rw [List.length_cons]
          omega
        rw [if_neg feed, if_neg feed]
        by_cases ret : c = 13
        · rw [if_pos ret, if_pos ret]
          by_cases next : s.head? = some 10
          · rw [if_pos next, grown]
            cases k with
            | zero =>
              rw [List.take_zero, if_neg (by simp)]
              obtain ⟨d, t, rfl⟩ : ∃ d t, s = d :: t := by
                cases s with
                | nil => cases next
                | cons d t => exact ⟨d, t, rfl⟩
              refine ⟨(c :: line).reverse, ?_, by simpa only [List.mem_reverse] using feeds'⟩
              rw [Nat.add_zero, complete_splitLinesFrom, if_neg (by simp)]
              rfl
            | succ k =>
              have same : (s.take (k + 1)).head? = some 10 := by
                cases s with
                | nil => cases next
                | cons d t => exact next
              rw [if_pos same]
              exact ih  (k + 1) feeds'
          · have other : (s.take k).head? ≠ some 10 := by
              cases k with
              | zero => simp
              | succ k =>
                cases s with
                | nil => simp
                | cons d t => exact next
            rw [if_neg next, if_neg other]
            obtain ⟨cut, split, plain⟩ := ih k noFeed
            exact ⟨cut, by rw [split, ended _ (by simp)]; rfl, plain⟩
        · rw [if_neg ret, if_neg ret, grown]
          exact ih  k feeds'

/-- The lines of the first `k` bytes: the complete lines, and a cut of the next one. -/
theorem splitLines_take (k : ℕ) (b : Bytes) :
    ∃ cut, splitLines (b.take k) = Frames.complete id k (splitLines b) ++ (if cut = [] then [] else [cut]) ∧
      10 ∉ cut := by
  have split := @splitLinesFrom_take [] k b (by simp)
  rw [List.length_nil, Nat.zero_add] at split
  exact split

theorem splitLines_flatten_of_isPrefix {b : Bytes} {front : List Bytes} (first : front <+: splitLines b) :
    splitLines front.flatten = front := by
  obtain ⟨cut, split, -⟩ := splitLines_take front.flatten.length b
  have taken : b.take front.flatten.length = front.flatten := by
    obtain ⟨back, e⟩ := first
    have bytes := congrArg List.flatten e
    rw [List.flatten_append, flatten_splitLines] at bytes
    rw [← bytes, List.take_left]
  have complete : Frames.complete id front.flatten.length (splitLines b) = front := by
    have lines := Frames.complete_length_flatMap id (fun l mem => (lines_splitLines b l mem).1) first
    rwa [List.flatMap_id] at lines
  rw [taken, complete] at split
  have nothing := congrArg List.flatten split
  rw [flatten_splitLines, List.flatten_append, List.self_eq_append_right] at nothing
  by_cases e : cut = []
  · rw [split, if_pos e, List.append_nil]
  · rw [if_neg e, List.flatten_singleton] at nothing
    exact absurd nothing e

theorem splitLines_append {b : Bytes} (ended : b.getLast? = some 10) (c : Bytes) :
    splitLines (b ++ c) = splitLines b ++ splitLines c := by
  have scan (line b : Bytes) (ended : b.getLast? = some 10) :
      splitLinesFrom line (b ++ c) = splitLinesFrom line b ++ splitLines c := by
    induction b generalizing line with
    | nil => cases ended
    | cons d s ih =>
      rw [List.cons_append, splitLinesFrom, splitLinesFrom]
      cases s with
      | nil =>
        have : d = 10 := Option.some.inj ended
        rw [if_pos this, if_pos this]
        rfl
      | cons e s =>
        have last : (e :: s).getLast? = some 10 := by rwa [List.getLast?_cons_cons] at ended
        have head : ((e :: s) ++ c).head? = (e :: s).head? := rfl
        rw [head, ih _ last, ih _ last]
        split_ifs <;> rfl
  exact scan [] b ended

example : splitLines [97, 13, 10, 98, 13, 10, 10, 99] = [[97, 13, 10], [98, 13, 10], [10], [99]] := by decide +kernel

end Bytes

end SimplicioFast
