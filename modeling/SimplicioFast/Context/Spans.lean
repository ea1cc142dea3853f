import SimplicioFast.Context.Loop
import SimplicioFast.Lib.Joined

/-!
# The bytes of a span

A span says at which bytes of its file its content stands.  `Snapshot.context_many` counts the line feeds up to its first
line, and `EffectiveSnapshot.context_many` adds up the lengths of the lines before, as if one byte ended each of them; the
content joins the lines of `str.splitlines` by line feeds.  A span is right when the lines of its symbol stand, one by one,
at this place in the file (`points_iff`).
-/

namespace SimplicioFast

open PyStr (utf8)

namespace Context

variable {tree : SourceTree} {limits : ContextLimits} {symbol : Symbol} {content text line : List Char} {contents : Bytes}
  {tokens : ℕ}

/-! ## Line feeds -/

theorem feed_mem_encodeCode {c : Char} (mem : 10 ∈ PyStr.encodeCode c.toNat) : c = '\n' := by
  have big (n : ℕ) (high : 128 ≤ n) (bound : n < 256) : (10 : UInt8) ≠ UInt8.ofNat n := by
    intro same
    have numbers := congrArg UInt8.toNat same
    rw [UInt8.toNat_ofNat_of_lt' bound] at numbers
    have ten : (10 : UInt8).toNat = 10 := rfl
    omega
  have bound : c.toNat < 0x110000 := by
    have valid := c.valid
    unfold UInt32.isValidChar Nat.isValidChar at valid
    show c.val.toNat < _
    omega
  have code : c.toNat = 10 := by
    unfold PyStr.encodeCode at mem
    split_ifs at mem with one two three
    · have numbers := congrArg UInt8.toNat (List.mem_singleton.1 mem)
      rw [UInt8.toNat_ofNat_of_lt' (show c.toNat < 256 by omega)] at numbers
      exact numbers.symm
    · simp only [List.mem_cons, List.not_mem_nil, or_false] at mem
      rcases mem with h | h <;> exact absurd h (big _ (by omega) (by omega))
    · simp only [List.mem_cons, List.not_mem_nil, or_false] at mem
      rcases mem with h | h | h <;> exact absurd h (big _ (by omega) (by omega))
    · simp only [List.mem_cons, List.not_mem_nil, or_false] at mem
      rcases mem with h | h | h | h <;> exact absurd h (big _ (by omega) (by omega))
  exact Char.toNat_inj.1 code

theorem feed_not_mem_utf8 (plain : '\n' ∉ line) : 10 ∉ utf8 line := by
  induction line with
  | nil => exact List.not_mem_nil
  | cons c line ih =>
    rw [List.mem_cons, not_or] at plain
    rw [PyStr.utf8_cons, List.mem_append, not_or]
    exact ⟨fun mem => plain.1 (feed_mem_encodeCode mem).symm, ih plain.2⟩

theorem utf8_joinLines (lines : List (List Char)) : utf8 (joinLines lines) = [10].intercalate (lines.map utf8) := by
  unfold joinLines
  induction lines with
  | nil => rfl
  | cons line lines ih =>
    cases lines with
    | nil => rw [List.intercalate_singleton, List.map_singleton, List.intercalate_singleton]
    | cons next lines =>
      rw [List.intercalate_cons_cons, PyStr.utf8_append, PyStr.utf8_append, ih]
      exact List.intercalate_cons_cons.symm

/-- The lines of `str.splitlines` hold no line feed. -/
theorem feed_not_mem_lines (text : List Char) : ∀ l ∈ lines text, '\n' ∉ l := by
  have run (line : List Char) (plain : '\n' ∉ line) : ∀ l ∈ linesFrom line text, '\n' ∉ l := by
    fun_induction linesFrom line text with
    | case1 => exact fun _ mem => by cases mem
    | case2 line nonempty =>
      rw [List.forall_mem_singleton, List.mem_reverse]
      exact plain
    | case3 line s ih =>
      refine List.forall_mem_cons.2 ⟨?_, ih List.not_mem_nil⟩
      rw [List.mem_reverse]
      exact plain
    | case4 line c s _ ends ih =>
      refine List.forall_mem_cons.2 ⟨?_, ih List.not_mem_nil⟩
      rw [List.mem_reverse]
      exact plain
    | case5 line c s _ inside ih =>
      refine ih fun mem => ?_
      rcases List.mem_cons.1 mem with rfl | mem
      · exact inside (by decide)
      · exact plain mem
  exact run [] List.not_mem_nil

/-! ## Lines by line feeds -/

/-- The lines of a file from a line on, when only line feeds end them; behind the last line stands the last one. -/
def feedLines (contents : Bytes) (line : ℤ) : List Bytes :=
  let pieces := contents.splitOn 10
  slice pieces (min (line - 1) (pieces.length - 1)) pieces.length

/-- The offsets of the lines that only line feeds end, when the file starts at an offset. -/
def feedStarts (n : ℕ) (contents : Bytes) : List ℕ :=
  n :: ((contents.zipIdx n).filter fun b => b.1 = 10).map fun b => b.2 + 1

theorem feedStarts_cons (n : ℕ) (b : UInt8) : feedStarts n (b :: contents) =
    if b = 10 then n :: feedStarts (n + 1) contents else n :: (feedStarts (n + 1) contents).tail := by
  unfold feedStarts
  rw [List.zipIdx_cons, List.filter_cons]
  split_ifs <;> simp_all

theorem length_feedStarts (n : ℕ) (contents : Bytes) : (feedStarts n contents).length = (contents.splitOn 10).length := by
  induction contents generalizing n with
  | nil => rfl
  | cons b contents ih =>
    rw [feedStarts_cons, List.splitOn_cons_eq_if_modifyHead]
    by_cases feed : b = 10
    · rw [if_pos feed, if_pos (beq_iff_eq.2 feed), List.length_cons, List.length_cons, ih]
    · rw [if_neg feed, if_neg (mt beq_iff_eq.1 feed), List.length_cons, List.length_tail, List.length_modifyHead, ih]
      have pos := List.length_pos_iff.2 (List.splitOn_ne_nil 10 contents)
      omega

theorem splitOn_drop_feedStarts {k : ℕ} (n : ℕ) (inside : k < (contents.splitOn 10).length) :
    ∃ m, (feedStarts n contents)[k]? = some (n + m) ∧ (contents.drop m).splitOn 10 = (contents.splitOn 10).drop k := by
  cases k with
  | zero => exact ⟨0, rfl, by rw [List.drop_zero, List.drop_zero]⟩
  | succ k =>
    induction contents generalizing n k with
    | nil =>
      rw [List.splitOn_nil, List.length_singleton] at inside
      omega
    | cons b contents ih =>
      rw [feedStarts_cons, List.splitOn_cons_eq_if_modifyHead]
      rw [List.splitOn_cons_eq_if_modifyHead] at inside
      by_cases feed : b = 10
      · rw [if_pos (beq_iff_eq.2 feed), List.length_cons] at inside
        rw [if_pos feed, if_pos (beq_iff_eq.2 feed), List.getElem?_cons_succ, List.drop_succ_cons]
        cases k with
        | zero => exact ⟨1, rfl, by rw [List.drop_succ_cons, List.drop_zero, List.drop_zero]⟩
        | succ k =>
          obtain ⟨m, found, rest⟩ := ih (n + 1) k (by omega)
          refine ⟨m + 1, ?_, by rw [List.drop_succ_cons, rest]⟩
          rw [found, Nat.add_assoc, Nat.add_comm 1 m]
      · rw [if_neg (mt beq_iff_eq.1 feed), List.length_modifyHead] at inside
        rw [if_neg feed, if_neg (mt beq_iff_eq.1 feed), List.getElem?_cons_succ]
        obtain ⟨m, found, rest⟩ := ih (n + 1) k inside
        refine ⟨m + 1, ?_, ?_⟩
        · rw [List.getElem?_tail, found, Nat.add_assoc, Nat.add_comm 1 m]
        · rw [List.drop_succ_cons, rest]
          cases contents.splitOn 10 with
          | nil => rfl
          | cons f fs => rfl

theorem splitOn_drop_sourceStart (contents : Bytes) (line : ℤ) :
    (contents.drop (SnapshotMethods.sourceStart contents line)).splitOn 10 = feedLines contents line := by
  have toEnd {α : Type} (l : List α) (i : ℤ) :
      slice l i l.length = l.drop (if i < 0 then (i + l.length).toNat else i.toNat) := by
    unfold slice
    dsimp only
    rw [if_neg (show ¬ ((l.length : ℤ) < 0) by omega), Int.toNat_natCast, List.take_length]
  have same := length_feedStarts 0 contents
  have pos := List.length_pos_iff.2 (List.splitOn_ne_nil 10 contents)
  unfold feedLines
  dsimp only
  rw [toEnd]
  have inside : (if min (line - 1) (((contents.splitOn 10).length : ℤ) - 1) < 0 then
      (min (line - 1) (((contents.splitOn 10).length : ℤ) - 1) + (contents.splitOn 10).length).toNat
      else (min (line - 1) (((contents.splitOn 10).length : ℤ) - 1)).toNat) < (contents.splitOn 10).length := by
    split_ifs <;> omega
  obtain ⟨m, found, rest⟩ := splitOn_drop_feedStarts 0 inside
  rw [← rest]
  have start : SnapshotMethods.sourceStart contents line = m := by
    show ((slice (feedStarts 0 contents) (min (line - 1) ((feedStarts 0 contents).length - 1))
      (feedStarts 0 contents).length).head?).getD 0 = m
    rw [toEnd, same, List.head?_drop, found, Option.getD_some, Nat.zero_add]
  rw [start]

/-! ## Excerpts -/

def symbolLines (symbol : Symbol) (text : List Char) : List Bytes :=
  (slice (lines text) ((symbol.line : ℤ) - 1) symbol.endLine).map utf8

theorem feed_not_mem_symbolLines : ∀ l ∈ symbolLines symbol text, 10 ∉ l := by
  intro l mem
  obtain ⟨line, cut, rfl⟩ := List.mem_map.1 mem
  exact feed_not_mem_utf8 (feed_not_mem_lines text line (List.mem_of_mem_take (List.mem_of_mem_drop cut)))

theorem utf8_snippet : utf8 (snippet text symbol.line symbol.endLine) = [10].intercalate (symbolLines symbol text) := by
  rw [snippet, utf8_joinLines]
  rfl

theorem excerpt_begins (pos : 0 < limits.maxLines) :
    excerpt limits symbol text <+: snippet text symbol.line symbol.endLine := by
  have le : boundedEnd limits symbol ≤ symbol.endLine := min_le_left _ _
  have nonneg : 0 ≤ boundedEnd limits symbol := by
    unfold boundedEnd
    omega
  unfold excerpt snippet joinLines
  refine Joined.intercalate_prefix_of_prefix ?_
  unfold slice
  dsimp only
  rw [if_neg (show ¬ boundedEnd limits symbol < 0 by omega), if_neg (show ¬ (symbol.endLine : ℤ) < 0 by omega)]
  rw [List.drop_take, List.drop_take]
  exact List.take_prefix_take_left (by omega)

theorem slice_eq_iff {b c : Bytes} (start : ℕ) : Bytes.slice b start (start + c.length) = c ↔ c <+: b.drop start := by
  rw [Bytes.slice, Nat.add_sub_cancel_left, List.prefix_iff_eq_take]
  exact eq_comm

/-- The content of a span stands at its bytes in its file, and has its digest. -/
def PointsAt (tree : SourceTree) (span : ContextSpan) : Prop :=
  ∃ b, tree span.file = .contents b ∧ Bytes.slice b span.startByte span.endByte = utf8 span.content ∧
    hexdigest (Bytes.slice b span.startByte span.endByte) = span.contentSha256

namespace ContextLoop

variable (L : ContextLoop tree)

/-- The lines of a symbol stand at the offset that the loop gives for it. -/
def InPlace (symbol : Symbol) (contents : Bytes) (text : List Char) : Prop :=
  Joined.Begins (symbolLines symbol text) ((contents.drop (L.offset contents text symbol.line)).splitOn 10)

theorem inPlace_iff : L.InPlace symbol contents text ↔
    utf8 (snippet text symbol.line symbol.endLine) <+: contents.drop (L.offset contents text symbol.line) := by
  rw [utf8_snippet, Joined.prefix_splitOn_iff feed_not_mem_symbolLines]
  rfl

theorem pointsAt_span_iff (current : L.Current symbol.file contents text) (front : content <+: excerpt limits symbol text) :
    PointsAt tree (L.span limits symbol contents text content tokens) ↔
      utf8 content <+: contents.drop (L.offset contents text symbol.line) := by
  obtain ⟨access, -⟩ := L.source current
  have of : SpanOf L.offset limits symbol contents text (L.span limits symbol contents text content tokens) :=
    L.spanOf tokens front
  have same : (L.span limits symbol contents text content tokens).content = content := L.content_span
  unfold PointsAt
  rw [of.file, access, of.contentSha256, of.endByte, same, of.startByte, ← slice_eq_iff]
  constructor
  · rintro ⟨b, found, there, -⟩
    cases found
    exact there
  · exact fun there => ⟨contents, rfl, there, congrArg hexdigest there⟩

variable {found before after : List Symbol}

theorem pointsAt_of_inPlace (pos : 0 < limits.maxLines) (current : L.Current symbol.file contents text)
    (front : content <+: excerpt limits symbol text) (inPlace : L.InPlace symbol contents text) :
    PointsAt tree (L.span limits symbol contents text content tokens) := by
  obtain ⟨rest, split⟩ := front.trans (excerpt_begins pos)
  have bytes : utf8 content <+: utf8 (snippet text symbol.line symbol.endLine) := by
    rw [← split, PyStr.utf8_append]
    exact List.prefix_append _ _
  exact (L.pointsAt_span_iff current front).2 (bytes.trans (L.inPlace_iff.1 inPlace))

theorem inPlace_of_points (points : ∀ limits t, Positive limits → Turn.scan (L.body limits) found ⟨[], 0, 0, []⟩ = .ok t →
      ∀ span ∈ t.state.spans, PointsAt tree span) (split : found = before ++ symbol :: after)
    (passed : L.AllCurrent before) (current : L.Current symbol.file contents text) : L.InPlace symbol contents text := by
  -- the first symbol with these lines is the one whose excerpt is delivered
  obtain ⟨front, first, back, parts, ⟨file, line, last⟩, none⟩ := exists_first
    (P := fun p : Symbol => p.file = symbol.file ∧ p.line = symbol.line ∧ p.endLine = symbol.endLine)
    (List.mem_append_right before (List.mem_singleton_self symbol)) ⟨rfl, rfl, rfl⟩
  have whole : found = front ++ first :: (back ++ after) := by
    rw [split, ← List.singleton_append, ← List.append_assoc, parts, List.append_assoc, List.cons_append]
  have passed : L.AllCurrent front := by
    intro p mem
    have listed : p ∈ before ++ [symbol] := parts ▸ List.mem_append_left _ mem
    rcases List.mem_append.1 listed with inside | here
    · exact passed p inside
    · rw [List.mem_singleton.1 here]
      exact ⟨contents, text, current⟩
  have current' : L.Current first.file contents text := file.symm ▸ current
  have none : ∀ p ∈ front, ¬ (p.file = first.file ∧ p.line = first.line ∧ p.endLine = first.endLine) := by
    rw [file, line, last]
    exact none
  obtain ⟨limits, t, positive, lines, scanned, tokens, delivered⟩ := L.exists_delivered passed current' none
  have points := points limits t positive (whole ▸ scanned) _ delivered
  rw [L.pointsAt_span_iff current' List.prefix_rfl, lines, line, last] at points
  exact L.inPlace_iff.2 points

end ContextLoop

/-! ## Offsets by joined lines -/

/-- The offset of a line when one byte ends each line before it; no snapshot has a line 0, which stands for the last one. -/
def joinedOffset (text : List Char) (line : ℕ) : ℕ :=
  if line = 0 then (utf8 (joinLines (lines text).dropLast)).length
  else (((lines text).take (line - 1)).map fun l => (utf8 l).length + 1).sum

theorem length_joinLines {ls : List (List Char)} (nonempty : ls ≠ []) :
    (utf8 (joinLines ls)).length + 1 = (ls.map fun l => (utf8 l).length + 1).sum := by
  induction ls with
  | nil => exact absurd rfl nonempty
  | cons l ls ih =>
    rw [utf8_joinLines] at ih ⊢
    cases ls with
    | nil => simp
    | cons l' ls =>
      have rest := ih (List.cons_ne_nil _ _)
      rw [List.map_cons] at rest
      rw [List.map_cons, List.map_cons, List.intercalate_cons_cons, List.length_append, List.length_append, List.map_cons,
        List.sum_cons, ← rest, List.length_singleton]
      omega

theorem prefixBytes_eq (nonempty : lines text ≠ []) (line : ℕ) :
    EffectiveSnapshot.prefixBytes text line = joinedOffset text line := by
  have pos := List.length_pos_iff.2 nonempty
  unfold EffectiveSnapshot.prefixBytes joinedOffset slice
  dsimp only
  rw [if_neg (show ¬ ((0 : ℤ) < 0) by decide), Int.toNat_zero, List.drop_zero]
  by_cases zero : line = 0
  · subst zero
    rw [if_pos rfl, if_pos (by decide), if_neg (by decide), List.dropLast_eq_take, Nat.add_zero]
    congr 4
    omega
  · rw [if_neg zero, if_neg (by omega), show ((line : ℤ) - 1).toNat = line - 1 by omega]
    by_cases one : line = 1
    · subst one
      rfl
    · have front : (lines text).take (line - 1) ≠ [] := by
        rw [← List.length_pos_iff, List.length_take]
        omega
      rw [if_pos (by omega), length_joinLines front]

theorem lines_ne_nil (nonempty : symbolLines symbol text ≠ []) : lines text ≠ [] := by
  intro none
  refine nonempty ?_
  unfold symbolLines slice
  dsimp only
  rw [none, List.take_nil, List.drop_nil, List.map_nil]

end Context

open Context

/-! ## All spans -/

theorem maxLines_pos {limits : ContextLimits} {u : Unit} (checked : checkLimits limits = .ok u) : 0 < limits.maxLines := by
  unfold checkLimits at checked
  split_ifs at checked with bad
  · cases checked
  · omega

/-- The lines of each symbol that a query finds behind accepted sources stand, one by one, at its line number in the file,
as line feeds count it. -/
def SnapshotMethods.InPlace (s : SnapshotMethods) (tree : SourceTree) : Prop :=
  ∀ files query before symbol after contents text, s.files = .ok files →
    s.find query = .ok (before ++ symbol :: after) → (contextLoop (expectedHashes files) tree).AllCurrent before →
      Current (expectedHashes files) tree symbol.file contents text →
        Joined.Begins (symbolLines symbol text) (feedLines contents symbol.line)

/-- The lines of each symbol that a query finds behind accepted sources stand, one by one, at the offset that its first line
has when one byte ends each line. -/
def EffectiveSnapshot.InPlace (casefold : PyStr → PyStr) (e : EffectiveSnapshot) (tree : SourceTree) : Prop :=
  ∀ query before symbol after contents text, e.find casefold query = .ok (before ++ symbol :: after) →
    (e.contextLoop tree).AllCurrent before → e.Current tree symbol.file contents text →
      Joined.Begins (symbolLines symbol text) ((contents.drop (joinedOffset text symbol.line)).splitOn 10)

theorem SnapshotMethods.pointsAt_iff (tree : SourceTree) (s : SnapshotMethods) :
    (∀ queries limits mapper spans, s.contextMany tree queries limits mapper = .ok spans →
      ∀ span ∈ spans, PointsAt tree span) ↔ s.InPlace tree := by
  constructor
  · intro points files query before symbol after contents text listed hits passed current
    rw [← splitOn_drop_sourceStart]
    have all : ∀ limits t, ContextLoop.Positive limits → Turn.scan (contextTurn (expectedHashes files) tree limits)
        (before ++ symbol :: after) ⟨[], 0, 0, []⟩ = .ok t → ∀ span ∈ t.state.spans, PointsAt tree span := by
      intro limits t positive scanned
      exact points _ _ _ _ (s.contextMany_of_scan positive listed hits scanned)
    exact (contextLoop (expectedHashes files) tree).inPlace_of_points all rfl passed current
  · intro inPlace queries limits mapper spans ran
    obtain ⟨_, checked, -⟩ := bind_ok.1 ran
    refine s.forall_spans (fun files query before symbol after contents text content tokens listed hits passed current front =>
      ?_) ran
    have here := inPlace files query before symbol after contents text listed hits passed current
    rw [← splitOn_drop_sourceStart] at here
    exact (contextLoop (expectedHashes files) tree).pointsAt_of_inPlace (maxLines_pos checked) current front here

theorem EffectiveSnapshot.pointsAt_iff (casefold : PyStr → PyStr) (tree : SourceTree) (e : EffectiveSnapshot) :
    (∀ queries limits spans, e.contextMany casefold tree queries limits = .ok spans →
      ∀ span ∈ spans, PointsAt tree span) ↔ e.InPlace casefold tree := by
  have same (symbol : Symbol) (contents : Bytes) (text : List Char) : (e.contextLoop tree).InPlace symbol contents text ↔
      Joined.Begins (symbolLines symbol text) ((contents.drop (joinedOffset text symbol.line)).splitOn 10) := by
    by_cases empty : symbolLines symbol text = []
    · unfold ContextLoop.InPlace
      rw [empty]
      exact Iff.rfl
    · rw [← prefixBytes_eq (lines_ne_nil empty)]
      rfl
  constructor
  · intro points query before symbol after contents text hits passed current
    have all : ∀ limits t, ContextLoop.Positive limits → Turn.scan (e.contextTurn tree limits)
        (before ++ symbol :: after) ⟨[], 0, 0, []⟩ = .ok t → ∀ span ∈ t.state.spans, PointsAt tree span := by
      intro limits t positive scanned
      exact points _ _ _ (e.contextMany_of_scan positive hits scanned)
    exact (same _ _ _).1 ((e.contextLoop tree).inPlace_of_points all rfl passed current)
  · intro inPlace queries limits spans ran
    obtain ⟨_, checked, -⟩ := bind_ok.1 ran
    refine e.forall_spans (fun query before symbol after contents text content tokens hits passed current front => ?_) ran
    have here := inPlace query before symbol after contents text hits passed current
    exact (e.contextLoop tree).pointsAt_of_inPlace (maxLines_pos checked) current front ((same _ _ _).2 here)

/-- The spans of all requests point at their contents exactly when the lines of the symbols stand in their places. -/
theorem spans_point_iff (casefold : PyStr → PyStr) (tree : SourceTree) :
    (∀ s : SnapshotMethods, (∀ queries limits mapper spans, s.contextMany tree queries limits mapper = .ok spans →
      ∀ span ∈ spans, PointsAt tree span) ↔ s.InPlace tree) ∧
    ∀ e : EffectiveSnapshot, (∀ queries limits spans, e.contextMany casefold tree queries limits = .ok spans →
      ∀ span ∈ spans, PointsAt tree span) ↔ e.InPlace casefold tree :=
  ⟨fun s => s.pointsAt_iff tree, fun e => e.pointsAt_iff casefold tree⟩

/-! ## A carriage return -/

/-- A function of two lines that end with a carriage return and a line feed. -/
def crlfText : List Char := "def f():\r\n    pass".toList

def crlfFunction : Symbol where
  name := "f"
  qualifiedName := "f"
  kind := "function"
  file := "a.py"
  line := 1
  endLine := 2

theorem not_begins_crlf (fs : List Bytes) : ¬ Joined.Begins (symbolLines crlfFunction crlfText) (utf8 "def f():\r".toList :: fs) := by
  have split : symbolLines crlfFunction crlfText = [utf8 "def f():".toList, utf8 "    pass".toList] := by
    decide +kernel
  rw [split, Joined.begins_cons_cons]
  exact fun h => absurd h.1 (by decide +kernel)

theorem readSource_oneFile (text : List Char) (file : PyStr) :
    readSource (EffectiveSnapshot.oneFile (utf8 text)) file = .ok (utf8 text, text) := by
  unfold readSource EffectiveSnapshot.oneFile
  dsimp only
  rw [PyStr.decodeChars_utf8]

theorem current_oneFile (text : List Char) (file : PyStr) :
    SnapshotMethods.Current (SnapshotMethods.expectedHashes [(file, Sha256.digest (utf8 text))])
      (EffectiveSnapshot.oneFile (utf8 text)) file (utf8 text) text := by
  refine ⟨readSource_oneFile text file, ?_⟩
  show ((Dict.empty : Dict PyStr Bytes).set file (Sha256.digest (utf8 text))).get? file = _
  rw [Dict.get?_set_self]

theorem find_oneSymbol : (EffectiveSnapshot.oneSymbol (utf8 crlfText) crlfFunction).find "f" = .ok [crlfFunction] := by
  have named : EffectiveSnapshot.named PyStr.asciiCasefold (PyStr.asciiCasefold "f") crlfFunction = true := by
    decide +kernel
  show Except.ok (EffectiveSnapshot.foundSymbols PyStr.asciiCasefold [crlfFunction] "f") = _
  unfold EffectiveSnapshot.foundSymbols
  rw [List.filter_singleton, named]
  rfl

/-- The spans of a file with carriage returns do not point at their contents. -/
theorem not_spans_point_crlf : ¬ ((∀ (s : SnapshotMethods) tree queries limits mapper spans,
      s.contextMany tree queries limits mapper = .ok spans → ∀ span ∈ spans, PointsAt tree span) ∧
    ∀ (e : EffectiveSnapshot) tree queries limits spans,
      e.contextMany PyStr.asciiCasefold tree queries limits = .ok spans → ∀ span ∈ spans, PointsAt tree span) := by
  rintro ⟨points, -⟩
  have inPlace := ((EffectiveSnapshot.oneSymbol (utf8 crlfText) crlfFunction).pointsAt_iff
    (EffectiveSnapshot.oneFile (utf8 crlfText))).1 (points _ _)
  have begins := inPlace _ "f" [] crlfFunction [] (utf8 crlfText) crlfText rfl find_oneSymbol
    (fun _ mem => by cases mem) (current_oneFile crlfText crlfFunction.file)
  have split : feedLines (utf8 crlfText) crlfFunction.line = [utf8 "def f():\r".toList, utf8 "    pass".toList] := by
    decide +kernel
  rw [split] at begins
  exact not_begins_crlf _ begins

end SimplicioFast
