import Mathlib.Data.Prod.Lex
import SimplicioFast.Context.Budgets
import SimplicioFast.Lib.Lists

/-!
# Context without an overlay

`EffectiveSnapshot.context_many` with no overlay is compared with `Snapshot.context_many`, loop against loop.  The
symbols are found in the same order when they are in the same order by name as by casefolded name.  The spans are then
the same exactly when no turn is reached with an empty content and no bytes left, where one loop goes on and the other
one returns, and every span that is delivered begins at the offset that its line has by line feeds.
-/

namespace SimplicioFast

open PyStr (utf8 fit decodeIgnore)

/-- The span without the symbol id and the generations, which only one of the two implementations fills in. -/
def ContextSpan.view (span : ContextSpan) : ContextSpan :=
  { span with symbolId := [], baseGeneration := none, overlayGeneration := none }

namespace Context

variable {tree : SourceTree} {limits : ContextLimits} {st st' : ContextState} {symbol : Symbol}
  {content whole text : List Char} {contents : Bytes} {maxBytes consumed tokens m : ℕ} {cut : Bool}
  {maxTokens : Option ℕ}

/-- The spans of a state, as they are compared. -/
def views (st : ContextState) : List ContextSpan := st.spans.map ContextSpan.view

/-- The states differ at most in what is not compared. -/
structure Alike (st st' : ContextState) : Prop where
  spans : views st' = views st
  consumed : st'.consumed = st.consumed
  consumedTokens : st'.consumedTokens = st.consumedTokens
  seen : st'.seen = st.seen

theorem Alike.length_eq (h : Alike st st') : st'.spans.length = st.spans.length := by
  have same := congrArg List.length h.spans
  rwa [views, views, List.length_map, List.length_map] at same

/-! ## Cuts -/

theorem utf8_eq_nil_iff : utf8 whole = [] ↔ whole = [] := by
  cases whole with
  | nil => exact ⟨fun _ => rfl, fun _ => rfl⟩
  | cons c l =>
    have pos := PyStr.utf8Width_pos c
    refine ⟨fun empty => ?_, fun empty => by cases empty⟩
    rw [PyStr.utf8_cons, List.append_eq_nil_iff] at empty
    rw [PyStr.utf8Width, empty.1] at pos
    exact absurd pos (Nat.lt_irrefl 0)

theorem length_utf8_eq_zero_iff : (utf8 whole).length = 0 ↔ whole = [] := by
  rw [List.length_eq_zero_iff, utf8_eq_nil_iff]

theorem tokensOf_eq_zero_iff {n : ℕ} : tokensOf n = 0 ↔ n = 0 := by
  unfold tokensOf
  split_ifs <;> omega

theorem cutTokens_eq_none_iff (left : ∀ m ∈ maxTokens, consumed ≤ m) :
    cutTokens maxTokens consumed whole = none ↔ ∃ m ∈ maxTokens, consumed = m ∧ whole ≠ [] := by
  have size : tokensOf (utf8 whole).length = 0 ↔ whole = [] := by
    rw [tokensOf_eq_zero_iff, length_utf8_eq_zero_iff]
  unfold cutTokens
  cases maxTokens with
  | none =>
    constructor
    · intro h
      cases h
    · rintro ⟨m, ⟨⟩, -⟩
  | some m =>
    have left := left m rfl
    dsimp only
    constructor
    · intro h
      split_ifs at h with exceeds none
      refine ⟨m, rfl, by omega, fun empty => ?_⟩
      rw [size.2 empty] at exceeds
      omega
    · rintro ⟨_, ⟨⟩, rfl, nonempty⟩
      have pos : 0 < tokensOf (utf8 whole).length := Nat.pos_of_ne_zero fun zero => nonempty (size.1 zero)
      rw [if_pos (by omega), if_pos (by omega)]

theorem length_lt_iff_of_cutTokens (h : cutTokens maxTokens consumed whole = some (content, tokens, cut)) :
    cut = decide ((utf8 content).length < (utf8 whole).length) := by
  unfold cutTokens at h
  cases maxTokens with
  | none =>
    cases h
    rw [decide_eq_false (Nat.lt_irrefl _)]
  | some m =>
    dsimp only at h
    split_ifs at h with exceeds none
    · cases h
      rw [PyStr.decodeIgnore_take_utf8]
      have fits := PyStr.length_utf8_fit_le ((m - consumed) * 4) whole
      refine (decide_eq_true ?_).symm
      unfold tokensOf at exceeds
      split_ifs at exceeds <;> omega
    · cases h
      rw [decide_eq_false (Nat.lt_irrefl _)]

theorem length_fit_lt_iff (left : consumed ≤ maxBytes) :
    (utf8 (fit (maxBytes - consumed) whole)).length < (utf8 whole).length ↔
      maxBytes < consumed + (utf8 whole).length := by
  have fits := PyStr.length_utf8_fit_le (maxBytes - consumed) whole
  constructor
  · intro shorter
    by_contra le
    rw [PyStr.fit_of_le (by omega)] at shorter
    exact Nat.lt_irrefl _ shorter
  · intro exceeds
    omega

end Context

open Context

namespace SnapshotMethods

variable {tree : SourceTree} {limits : ContextLimits} {st st' : ContextState} {symbol : Symbol}
  {expected : Dict PyStr Bytes} {t t' : Turn ContextState} {content whole text : List Char} {contents : Bytes}
  {tokens : ℕ} {tokensCut : Bool}

/-- Whether the excerpt of a symbol was delivered before. -/
def Seen (limits : ContextLimits) (st : ContextState) (symbol : Symbol) : Prop :=
  (symbol.file, (symbol.line : ℤ), boundedEnd limits symbol) ∈ st.seen

/-- The end of a turn, after the source was read. -/
def finish (limits : ContextLimits) (symbol : Symbol) (contents : Bytes) (text : List Char) (st : ContextState) :
    Turn ContextState :=
  if (symbol.file, (symbol.line : ℤ), boundedEnd limits symbol) ∈ st.seen then .next st
  else
    match cutBytes limits.maxBytes st.consumed (snippet text symbol.line (boundedEnd limits symbol)) with
    | none => .returned st
    | some (content, bytesCut) => match cutTokens limits.maxTokens st.consumedTokens content with
      | none => .returned st
      | some (content, tokens, tokensCut) =>
        .next (deliver limits symbol contents content tokens (bytesCut || tokensCut) st)

theorem contextTurn_cases (turn : contextTurn expected tree limits st symbol = .ok t) :
    (limits.maxResults ≤ st.spans.length ∧ t = .returned st) ∨
      (¬ limits.maxResults ≤ st.spans.length ∧ ∃ contents text, readSource tree symbol.file = .ok (contents, text) ∧
        expected.get? symbol.file = some (Sha256.digest contents) ∧ t = finish limits symbol contents text st) := by
  unfold contextTurn at turn
  split at turn
  · next full =>
    cases turn
    exact .inl ⟨full, rfl⟩
  · next room =>
    split at turn
    · cases turn
    · next digest known =>
      obtain ⟨⟨contents, text⟩, read, turn⟩ := bind_ok.1 turn
      dsimp only at turn
      split at turn
      · cases turn
      · next fresh =>
        refine .inr ⟨room, contents, text, read, ?_, ?_⟩
        · rw [known, not_not.1 fresh]
        · unfold finish
          split at turn
          · next seen =>
            rw [if_pos seen]
            exact (Except.ok.inj turn).symm
          · next unseen =>
            rw [if_neg unseen]
            generalize cutBytes _ _ _ = first at turn ⊢
            cases first with
            | none => exact (Except.ok.inj turn).symm
            | some first =>
              obtain ⟨content, bytesCut⟩ := first
              dsimp only at turn ⊢
              generalize cutTokens _ _ _ = second at turn ⊢
              cases second with
              | none => exact (Except.ok.inj turn).symm
              | some second => exact (Except.ok.inj turn).symm

end SnapshotMethods

namespace EffectiveSnapshot

open SnapshotMethods (sourceStart cutBytes Seen)

variable {tree : SourceTree} {limits : ContextLimits} {st st' : ContextState} {symbol : Symbol}
  {expected : Dict PyStr Bytes} {t t' : Turn ContextState} {content whole text : List Char} {contents : Bytes}
  {tokens : ℕ} {tokensCut : Bool} {l : List ContextSpan} (e : EffectiveSnapshot)

/-- The end of a turn, after the source was read. -/
def finish (limits : ContextLimits) (symbol : Symbol) (contents : Bytes) (text : List Char) (st : ContextState) :
    Turn ContextState :=
  if (symbol.file, (symbol.line : ℤ), boundedEnd limits symbol) ∈ st.seen then .next st
  else if limits.maxBytes - st.consumed = 0 then .returned st
  else
    match cutTokens limits.maxTokens st.consumedTokens
      (fit (limits.maxBytes - st.consumed) (snippet text symbol.line (boundedEnd limits symbol))) with
    | none => .returned st
    | some (content, tokens, tokensCut) => .next (e.deliver limits symbol contents text
        (snippet text symbol.line (boundedEnd limits symbol)) content tokens tokensCut st)

theorem contextTurn_of_full (full : limits.maxResults ≤ st.spans.length) :
    e.contextTurn tree limits st symbol = .ok (.returned st) := if_pos full

theorem contextTurn_eq (room : ¬ limits.maxResults ≤ st.spans.length)
    (read : readSource tree symbol.file = .ok (contents, text))
    (fresh : e.expectedHash symbol.file = some (hexdigest contents)) :
    e.contextTurn tree limits st symbol = .ok (e.finish limits symbol contents text st) := by
  unfold contextTurn finish
  rw [if_neg room, read]
  show (if some (hexdigest contents) ≠ e.expectedHash symbol.file then _ else _) = _
  rw [if_neg (not_not.2 fresh.symm)]
  dsimp only
  rw [PyStr.decodeIgnore_take_utf8]
  split_ifs
  · rfl
  · rfl
  · cases cutTokens _ _ _ <;> rfl

/-! ## One turn -/

/-- The condition under which the two loops treat an excerpt alike: an empty one is not reached without bytes left, and
one that is delivered begins at the offset that its line has by line feeds. -/
structure CleanExcerpt (limits : ContextLimits) (st : ContextState) (symbol : Symbol) (contents : Bytes)
    (text : List Char) : Prop where
  nonempty : snippet text symbol.line (boundedEnd limits symbol) = [] → st.consumed < limits.maxBytes
  start : st.consumed < limits.maxBytes →
    (∀ m ∈ limits.maxTokens, fit (limits.maxBytes - st.consumed) (snippet text symbol.line (boundedEnd limits symbol)) ≠
      [] → st.consumedTokens < m) → sourceStart contents symbol.line = prefixBytes text symbol.line

def CleanTurn (tree : SourceTree) (limits : ContextLimits) (st : ContextState) (symbol : Symbol) : Prop :=
  st.spans.length < limits.maxResults → ¬ Seen limits st symbol →
    ∀ contents text, readSource tree symbol.file = .ok (contents, text) →
      CleanExcerpt limits st symbol contents text

theorem alike_deliver (alike : Alike st st') (left : st.consumed ≤ limits.maxBytes)
    (second : cutTokens limits.maxTokens st.consumedTokens (fit (limits.maxBytes - st.consumed) whole) =
      some (content, tokens, tokensCut)) (start : sourceStart contents symbol.line = prefixBytes text symbol.line) :
    Alike (SnapshotMethods.deliver limits symbol contents content tokens
        (decide (limits.maxBytes < st.consumed + (utf8 whole).length) || tokensCut) st)
      (e.deliver limits symbol contents text whole content tokens tokensCut st') := by
  have bytesCut : decide ((utf8 (decodeIgnore ((utf8 whole).take (limits.maxBytes - st'.consumed)))).length <
      (utf8 whole).length) = decide (limits.maxBytes < st.consumed + (utf8 whole).length) := by
    rw [alike.consumed, PyStr.decodeIgnore_take_utf8, decide_eq_decide, length_fit_lt_iff left]
  have cut : decide ((utf8 content).length < (utf8 whole).length) =
      (decide (limits.maxBytes < st.consumed + (utf8 whole).length) || tokensCut) := by
    have first := @length_fit_lt_iff whole _ _ left
    have shorter := length_utf8_le_of_prefix (cutTokens_eq_some second).1
    have shorter' := length_utf8_le_of_prefix (PyStr.fit_prefix (limits.maxBytes - st.consumed) whole)
    rw [length_lt_iff_of_cutTokens second, ← Bool.decide_or, decide_eq_decide, ← first]
    omega
  have absorb (a b : Bool) : ((a || b) && b) = b := by cases a <;> cases b <;> rfl
  have span : (e.deliver limits symbol contents text whole content tokens tokensCut st').spans.map ContextSpan.view =
      (SnapshotMethods.deliver limits symbol contents content tokens
        (decide (limits.maxBytes < st.consumed + (utf8 whole).length) || tokensCut) st).spans.map ContextSpan.view := by
    have spans : st'.spans.map ContextSpan.view = st.spans.map ContextSpan.view := alike.spans
    unfold deliver SnapshotMethods.deliver
    rw [List.map_append, List.map_append, spans, bytesCut, cut, Bool.or_assoc, absorb, start]
    rfl
  refine ⟨span, ?_, ?_, ?_⟩
  · show st'.consumed + _ = st.consumed + _
    rw [alike.consumed]
  · show st'.consumedTokens + _ = st.consumedTokens + _
    rw [alike.consumedTokens]
  · show _ :: st'.seen = _ :: st.seen
    rw [alike.seen]

theorem compare_finish (bounded : Bounded tree limits st) (alike : Alike st st') (unseen : ¬ Seen limits st symbol) :
    (SnapshotMethods.finish limits symbol contents text st = .returned st ∧
      e.finish limits symbol contents text st' = .returned st' ∧ CleanExcerpt limits st symbol contents text) ∨
    (∃ s span, SnapshotMethods.finish limits symbol contents text st = .next s ∧ s.spans = st.spans ++ [span] ∧
      e.finish limits symbol contents text st' = .returned st' ∧ ¬ CleanExcerpt limits st symbol contents text) ∨
    ∃ s s' span span', SnapshotMethods.finish limits symbol contents text st = .next s ∧
      e.finish limits symbol contents text st' = .next s' ∧ s.spans = st.spans ++ [span] ∧
      s'.spans = st'.spans ++ [span'] ∧ span.startByte = sourceStart contents symbol.line ∧
      span'.startByte = prefixBytes text symbol.line ∧
      (CleanExcerpt limits st symbol contents text ↔ sourceStart contents symbol.line = prefixBytes text symbol.line) ∧
      (sourceStart contents symbol.line = prefixBytes text symbol.line → Alike s s') := by
  have unseen : (symbol.file, (symbol.line : ℤ), boundedEnd limits symbol) ∉ st.seen := unseen
  have unseen' : (symbol.file, (symbol.line : ℤ), boundedEnd limits symbol) ∉ st'.seen := alike.seen ▸ unseen
  have le := bounded.consumed_le
  unfold SnapshotMethods.finish finish
  rw [if_neg unseen, if_neg unseen', alike.consumed, alike.consumedTokens]
  generalize whole_eq : snippet text symbol.line (boundedEnd limits symbol) = whole
  by_cases full : limits.maxBytes - st.consumed = 0
  · rw [if_pos full]
    by_cases empty : whole = []
    · -- the snapshot delivers the empty content
      refine .inr (.inl ?_)
      have first : cutBytes limits.maxBytes st.consumed whole = some (whole, false) := by
        rw [cutBytes, if_neg (by simp [empty, le])]
      have second : cutTokens limits.maxTokens st.consumedTokens whole ≠ none := fun none => by
        obtain ⟨m, -, -, nonempty⟩ := (cutTokens_eq_none_iff fun m mem => bounded.consumedTokens_le mem).1 none
        exact nonempty empty
      obtain ⟨⟨content, tokens, tokensCut⟩, second⟩ := Option.ne_none_iff_exists'.1 second
      rw [first]
      dsimp only
      rw [second]
      refine ⟨_, _, rfl, rfl, rfl, fun clean => ?_⟩
      have left := clean.nonempty (whole_eq.trans empty)
      omega
    · refine .inl ⟨?_, rfl, ?_⟩
      · have pos : 0 < (utf8 whole).length := Nat.pos_of_ne_zero fun zero => empty (length_utf8_eq_zero_iff.1 zero)
        rw [cutBytes, if_pos (by omega)]
        dsimp only
        rw [if_pos full]
      · exact ⟨fun none => absurd (whole_eq.symm.trans none) empty, fun left => absurd left (by omega)⟩
  · rw [if_neg full]
    have first : cutBytes limits.maxBytes st.consumed whole = some (fit (limits.maxBytes - st.consumed) whole,
        decide (limits.maxBytes < st.consumed + (utf8 whole).length)) := by
      unfold cutBytes
      dsimp only
      by_cases exceeds : limits.maxBytes < st.consumed + (utf8 whole).length
      · rw [if_pos exceeds, if_neg full, PyStr.decodeIgnore_take_utf8, decide_eq_true exceeds]
      · rw [if_neg exceeds, PyStr.fit_of_le (by omega), decide_eq_false exceeds]
    rw [first]
    dsimp only
    cases second : cutTokens limits.maxTokens st.consumedTokens (fit (limits.maxBytes - st.consumed) whole) with
    | none =>
      refine .inl ⟨rfl, rfl, fun _ => by omega, fun _ left => ?_⟩
      obtain ⟨m, mem, same, nonempty⟩ := (cutTokens_eq_none_iff fun m mem => bounded.consumedTokens_le mem).1 second
      rw [whole_eq] at left
      exact absurd (left m mem nonempty) (by omega)
    | some cut =>
      obtain ⟨content, tokens, tokensCut⟩ := cut
      refine .inr (.inr ⟨_, _, _, _, rfl, rfl, rfl, rfl, rfl, rfl, ⟨fun clean => ?_, fun start => ?_⟩, fun start => ?_⟩)
      · refine clean.start (by omega) fun m mem nonempty => ?_
        have le := bounded.consumedTokens_le mem
        by_contra spent
        rw [whole_eq] at nonempty
        have none := (cutTokens_eq_none_iff fun m mem => bounded.consumedTokens_le mem).2
          ⟨m, mem, by omega, nonempty⟩
        rw [second] at none
        cases none
      · exact ⟨fun _ => by omega, fun _ _ => start⟩
      · exact e.alike_deliver alike le second start

/-- The states of the two loops. -/
structure Paired (tree : SourceTree) (limits : ContextLimits) (st st' : ContextState) : Prop where
  bounded : Bounded tree limits st
  alike : Alike st st'

/-- There is no overlay, and the manifest lists the digests of the snapshot. -/
structure Listed (expected : Dict PyStr Bytes) (e : EffectiveSnapshot) : Prop where
  overlay : e.overlay = none
  hashes : ∀ file digest, expected.get? file = some digest →
    e.sourceHashes.get? file = some (PyStr.ofChars (Bytes.hex digest))

theorem Listed.expectedHash {e : EffectiveSnapshot} (listed : Listed expected e) {file : PyStr}
    (known : expected.get? file = some (Sha256.digest contents)) : e.expectedHash file = some (hexdigest contents) := by
  unfold EffectiveSnapshot.expectedHash
  rw [listed.overlay]
  exact listed.hashes _ _ known

theorem cleanTurn_iff (room : ¬ limits.maxResults ≤ st.spans.length) (unseen : ¬ Seen limits st symbol)
    (read : readSource tree symbol.file = .ok (contents, text)) :
    CleanTurn tree limits st symbol ↔ CleanExcerpt limits st symbol contents text := by
  constructor
  · exact fun clean => clean (not_le.1 room) unseen contents text read
  · intro clean _ _ contents' text' read'
    cases read.symm.trans read'
    exact clean

theorem compare_contextTurn (listed : Listed expected e) (paired : Paired tree limits st st')
    (turn : SnapshotMethods.contextTurn expected tree limits st symbol = .ok t) :
    ∃ t', e.contextTurn tree limits st' symbol = .ok t' ∧
      (CleanTurn tree limits st symbol → Turn.Matched (Paired tree limits) t t') ∧
      ((∃ l, Turn.Ends views t l ∧ Turn.Ends views t' l) → CleanTurn tree limits st symbol) := by
  obtain ⟨bounded, alike⟩ := paired
  have next : Bounded tree limits t.state := SnapshotMethods.bounded_contextTurn bounded symbol turn
  rcases SnapshotMethods.contextTurn_cases turn with ⟨full, rfl⟩ | ⟨room, contents, text, read, known, rfl⟩
  · refine ⟨.returned st', e.contextTurn_of_full (alike.length_eq ▸ full), fun _ => ⟨bounded, alike⟩, fun _ room => ?_⟩
    exact absurd full (not_le.2 room)
  · refine ⟨_, e.contextTurn_eq (alike.length_eq ▸ room) read (listed.expectedHash known), ?_⟩
    by_cases seen : Seen limits st symbol
    · have here : (symbol.file, (symbol.line : ℤ), boundedEnd limits symbol) ∈ st.seen := seen
      rw [SnapshotMethods.finish, if_pos here, finish, alike.seen, if_pos here]
      exact ⟨fun _ => ⟨bounded, alike⟩, fun _ _ unseen => absurd seen unseen⟩
    · rw [cleanTurn_iff room seen read]
      rcases @compare_finish _ _ _ _ _ text contents e bounded alike seen with
        ⟨same, same', clean⟩ | ⟨s, span, same, spans, same', unclean⟩ |
        ⟨s, s', span, span', same, same', spans, spans', start, start', clean, alike'⟩
      · rw [same, same']
        exact ⟨fun _ => ⟨bounded, alike⟩, fun _ => clean⟩
      · rw [same, same']
        refine ⟨fun clean => absurd clean unclean, ?_⟩
        rintro ⟨l, ends, ends'⟩
        have longer : (views s).length ≤ l.length := ends.length_le
        rw [← show views st' = l from ends', alike.spans, views, views, List.length_map, List.length_map, spans,
          List.length_append, List.length_singleton] at longer
        omega
      · rw [same] at next
        rw [same, same', clean]
        refine ⟨fun starts => ⟨next, alike' starts⟩, ?_⟩
        rintro ⟨l, ends, ends'⟩
        have first : views st ++ [span.view] <+: l := by
          have ends : views s <+: l := ends
          rwa [views, spans, List.map_append] at ends
        have second : views st ++ [span'.view] <+: l := by
          have ends' : views s' <+: l := ends'
          rw [views, spans', List.map_append] at ends'
          rwa [← alike.spans]
        have view := List.append_cancel_left
          ((List.prefix_of_prefix_length_le first second (by simp)).eq_of_length (by simp))
        have starts := congrArg ContextSpan.startByte (List.singleton_inj.1 view)
        rw [← start, ← start']
        exact starts

theorem views_deliver_prefix {span : ContextSpan} (spans : st'.spans = st.spans ++ [span]) : views st <+: views st' := by
  rw [views, views, spans, List.map_append]
  exact List.prefix_append _ _

theorem views_contextTurn (turn : e.contextTurn tree limits st symbol = .ok t) : views st <+: views t.state := by
  unfold contextTurn at turn
  split at turn
  · cases turn
    exact List.prefix_rfl
  · obtain ⟨⟨contents, text⟩, -, turn⟩ := bind_ok.1 turn
    dsimp only at turn
    split at turn
    · cases turn
    · split at turn
      · cases turn
        exact List.prefix_rfl
      · split at turn
        · cases turn
          exact List.prefix_rfl
        · split at turn
          · cases turn
            exact List.prefix_rfl
          · cases turn
            exact views_deliver_prefix rfl

end EffectiveSnapshot

namespace SnapshotMethods

variable {tree : SourceTree} {limits : ContextLimits} {st : ContextState} {symbol : Symbol}
  {expected : Dict PyStr Bytes} {t : Turn ContextState} (s : SnapshotMethods) {query : PyStr}

theorem views_contextTurn (turn : contextTurn expected tree limits st symbol = .ok t) : views st <+: views t.state := by
  rcases contextTurn_cases turn with ⟨-, rfl⟩ | ⟨-, contents, text, -, -, rfl⟩
  · exact List.prefix_rfl
  · unfold finish
    split
    · exact List.prefix_rfl
    · split
      · exact List.prefix_rfl
      · split
        · exact List.prefix_rfl
        · exact EffectiveSnapshot.views_deliver_prefix rfl

theorem views_contextQuery (turn : s.contextQuery expected tree limits st query = .ok t) :
    views st <+: views t.state := by
  obtain ⟨found, -, loop⟩ := bind_ok.1 turn
  exact Turn.prefix_of_scan (fun _ _ _ turn => views_contextTurn turn) loop

end SnapshotMethods

namespace EffectiveSnapshot

variable {tree : SourceTree} {limits : ContextLimits} {st st' : ContextState} {expected : Dict PyStr Bytes}
  {t : Turn ContextState} {all : List Symbol} {query : PyStr} {casefold : PyStr → PyStr} (e : EffectiveSnapshot)

theorem views_contextQuery (turn : e.contextQuery casefold tree limits st query = .ok t) :
    views st <+: views t.state := by
  obtain ⟨found, -, loop⟩ := bind_ok.1 turn
  exact Turn.prefix_of_scan (fun _ _ _ turn => e.views_contextTurn turn) loop

/-! ## The symbols of a query -/

/-- The symbols that a snapshot finds, in the order in which it finds them. -/
def foundSymbols (casefold : PyStr → PyStr) (all : List Symbol) (query : PyStr) : List Symbol :=
  (all.filter (named casefold (casefold query))).insertionSort fun a b =>
    SnapshotFormat.symbolLe casefold a b = true

/-- The indexes of a snapshot find its symbols by their names and their qualified names. -/
structure Indexed (casefold : PyStr → PyStr) (s : SnapshotMethods) (all : List Symbol) : Prop where
  symbols : s.symbols = .ok all
  find : ∀ query, s.find query = .ok (foundSymbols casefold all query)

/-- The symbols of a query are in the same order by name as by casefolded name. -/
def SameOrder (casefold : PyStr → PyStr) (all : List Symbol) (query : PyStr) : Prop :=
  (all.filter (named casefold (casefold query))).insertionSort (fun a b => symbolLe a b = true) =
    foundSymbols casefold all query

/-- The key by which the symbols are sorted. -/
def sortKey (s : Symbol) : PyStr ×ₗ PyStr ×ₗ PyStr ×ₗ ℕ := toLex (s.name, toLex (s.qualifiedName, toLex (s.file, s.line)))

theorem symbolLe_iff (s t : Symbol) : symbolLe s t = true ↔ sortKey s ≤ sortKey t := by
  simp [symbolLe, sortKey, Prod.Lex.toLex_le_toLex]

theorem find_eq (overlay : e.overlay = none) (symbols : e.base.symbols = .ok all) (query : PyStr) :
    e.find casefold query = .ok (((all.filter (named casefold (casefold query))).insertionSort
      fun a b => symbolLe a b = true).map e.withGenerations) := by
  have kept : (all.filter fun symbol => !e.replaced symbol.file) = all := by
    refine List.filter_eq_self.2 fun symbol _ => ?_
    rw [replaced, overlay]
    rfl
  have none : e.overlaySymbols = [] := by rw [overlaySymbols, overlay]
  have sorted : e.symbols = .ok ((all.insertionSort fun a b => symbolLe a b = true).map e.withGenerations) := by
    have commute := List.map_insertionSort (r := fun a b => symbolLe a b = true) (s := fun a b => symbolLe a b = true)
      e.withGenerations all fun _ _ _ _ => Iff.rfl
    unfold EffectiveSnapshot.symbols
    rw [symbols]
    show Except.ok _ = _
    rw [kept, none, List.map_nil, List.append_nil, commute]
  unfold EffectiveSnapshot.find
  rw [sorted]
  show Except.ok _ = _
  rw [List.filter_map]
  congr 2
  refine filter_insertionSort_of_trans ?_ ?_ _ all
  · intro a b
    rw [symbolLe_iff, symbolLe_iff]
    exact le_total _ _
  · intro a b c
    rw [symbolLe_iff, symbolLe_iff, symbolLe_iff]
    exact le_trans

/-- The snapshot and its base find the same symbols, in the same order. -/
def SameFound (casefold : PyStr → PyStr) (query : PyStr) : Prop :=
  ∃ found, e.base.find query = .ok found ∧ e.find casefold query = .ok (found.map e.withGenerations)

theorem sameFound_of_sameOrder (overlay : e.overlay = none) (indexed : Indexed casefold e.base all)
    (order : SameOrder casefold all query) : e.SameFound casefold query := by
  refine ⟨foundSymbols casefold all query, indexed.find query, ?_⟩
  rw [e.find_eq overlay indexed.symbols, order]

/-! ## The loops -/

/-- The condition before a turn of the outer loop: every turn of the inner loop is clean. -/
def CleanQuery (expected : Dict PyStr Bytes) (tree : SourceTree) (limits : ContextLimits) (st : ContextState)
    (query : PyStr) : Prop :=
  ∀ found, e.base.find query = .ok found →
    Turn.Along (CleanTurn tree limits) (SnapshotMethods.contextTurn expected tree limits) found st

theorem contextQuery_eq {found : List Symbol} (same : e.find casefold query = .ok (found.map e.withGenerations)) :
    e.contextQuery casefold tree limits st query = Turn.scan (e.contextTurn tree limits) found st := by
  unfold contextQuery
  rw [same]
  exact Turn.scan_map _ _

theorem base_contextQuery_eq {found : List Symbol} (same : e.base.find query = .ok found) :
    e.base.contextQuery expected tree limits st query =
      Turn.scan (SnapshotMethods.contextTurn expected tree limits) found st := by
  unfold SnapshotMethods.contextQuery
  rw [same]
  rfl

theorem matched_contextQuery (listed : Listed expected e) (paired : Paired tree limits st st')
    (same : e.SameFound casefold query) (clean : e.CleanQuery expected tree limits st query)
    (turn : e.base.contextQuery expected tree limits st query = .ok t) :
    ∃ t', e.contextQuery casefold tree limits st' query = .ok t' ∧ Turn.Matched (Paired tree limits) t t' := by
  obtain ⟨found, base, effective⟩ := same
  rw [e.base_contextQuery_eq base] at turn
  rw [e.contextQuery_eq effective]
  refine Turn.scan_matched (fun st st' symbol t paired clean turn => ?_) paired (clean found base) turn
  obtain ⟨t', turn', matched, -⟩ := e.compare_contextTurn listed paired turn
  exact ⟨t', turn', matched clean⟩

theorem cleanQuery_of_ends (listed : Listed expected e) {t' : Turn ContextState} {l : List ContextSpan}
    (paired : Paired tree limits st st') (same : e.SameFound casefold query)
    (turn : e.base.contextQuery expected tree limits st query = .ok t)
    (turn' : e.contextQuery casefold tree limits st' query = .ok t') (ends : Turn.Ends views t l)
    (ends' : Turn.Ends views t' l) :
    e.CleanQuery expected tree limits st query ∧ Turn.Matched (Paired tree limits) t t' := by
  obtain ⟨found, base, effective⟩ := same
  rw [e.base_contextQuery_eq base] at turn
  rw [e.contextQuery_eq effective] at turn'
  have grows : ∀ st symbol t, SnapshotMethods.contextTurn expected tree limits st symbol = .ok t →
      views st <+: views t.state := fun _ _ _ turn => SnapshotMethods.views_contextTurn turn
  have grows' : ∀ st symbol t, e.contextTurn tree limits st symbol = .ok t → views st <+: views t.state :=
    fun _ _ _ turn => e.views_contextTurn turn
  have along : Turn.Along (CleanTurn tree limits) (SnapshotMethods.contextTurn expected tree limits) found st ∧
      Turn.Matched (Paired tree limits) t t' := by
    refine Turn.along_of_ends (Q := fun _ _ => True) ?_ grows grows' paired (Turn.along_true _ _ _) turn turn' ends
      ends'
    intro st st' symbol t t' l paired _ turn turn' ends ends'
    obtain ⟨t'', turn'', matched, clean⟩ := e.compare_contextTurn listed paired turn
    cases turn'.symm.trans turn''
    have clean := clean ⟨l, ends, ends'⟩
    exact ⟨clean, matched clean⟩
  refine ⟨fun found' base' => ?_, along.2⟩
  cases base.symm.trans base'
  exact along.1

/-- The state in which the loops start. -/
def initial : ContextState := ⟨[], 0, 0, []⟩

/-- A snapshot with no overlay delivers the spans of its base exactly when every turn of the loop over the base is
clean, as long as the same symbols are found for the queries that the loop reaches. -/
theorem contextMany_same_iff {files : List (PyStr × Bytes)} {queries : List PyStr} {mapper : Option Json}
    {spans : List ContextSpan} (opened : e.base.files = .ok files)
    (listed : Listed (SnapshotMethods.expectedHashes files) e)
    (returned : e.base.contextMany tree queries limits mapper = .ok spans)
    (found : Turn.Along (fun _ query => e.SameFound casefold query)
      (e.base.contextQuery (SnapshotMethods.expectedHashes files) tree limits) queries initial) :
    (∃ spans', e.contextMany casefold tree queries limits = .ok spans' ∧
        spans'.map ContextSpan.view = spans.map ContextSpan.view) ↔
      Turn.Along (e.CleanQuery (SnapshotMethods.expectedHashes files) tree limits)
        (e.base.contextQuery (SnapshotMethods.expectedHashes files) tree limits) queries initial := by
  obtain ⟨⟨⟩, checked, returned⟩ := bind_ok.1 returned
  obtain ⟨-, -, returned⟩ := bind_ok.1 returned
  obtain ⟨files', same, returned⟩ := bind_ok.1 returned
  rw [opened] at same
  cases same
  obtain ⟨t, loop, returned⟩ := bind_ok.1 returned
  cases returned
  have paired : Paired tree limits initial initial := ⟨bounded_empty tree limits, rfl, rfl, rfl, rfl⟩
  have unfolded : e.contextMany casefold tree queries limits =
      (Turn.scan (e.contextQuery casefold tree limits) queries initial).map fun t => t.state.spans := by
    unfold contextMany
    rw [checked]
    show (Turn.scan (e.contextQuery casefold tree limits) queries initial >>= fun t => pure t.state.spans) = _
    cases Turn.scan (e.contextQuery casefold tree limits) queries initial <;> rfl
  rw [unfolded]
  constructor
  · rintro ⟨spans', ran, views_eq⟩
    cases loop' : Turn.scan (e.contextQuery casefold tree limits) queries initial with
    | error x =>
      rw [loop'] at ran
      cases ran
    | ok t' =>
      rw [loop'] at ran
      cases ran
      have all_ends {t : Turn ContextState} {l : List ContextSpan} (same : views t.state = l) : Turn.Ends views t l := by
        cases t with
        | next s => exact same ▸ List.prefix_rfl
        | returned s => exact same
      have grows : ∀ st query t, e.base.contextQuery (SnapshotMethods.expectedHashes files) tree limits st query =
          .ok t → views st <+: views t.state := fun _ _ _ turn => e.base.views_contextQuery turn
      have grows' : ∀ st query t, e.contextQuery casefold tree limits st query = .ok t →
          views st <+: views t.state := fun _ _ _ turn => e.views_contextQuery turn
      refine (Turn.along_of_ends ?_ grows grows' paired found loop loop' (all_ends rfl) (all_ends views_eq)).1
      intro st st' query t t' l paired order turn turn' ends ends'
      exact e.cleanQuery_of_ends listed paired order turn turn' ends ends'
  · intro clean
    obtain ⟨t', loop', matched⟩ := Turn.scan_matched
      (P := fun st query => e.SameFound casefold query ∧
        e.CleanQuery (SnapshotMethods.expectedHashes files) tree limits st query)
      (fun st st' query t paired clean turn => e.matched_contextQuery listed paired clean.1 clean.2 turn)
      paired (found.and clean) loop
    rw [loop']
    exact ⟨_, rfl, matched.state.alike.spans⟩

/-! ## Samples -/

/-- A snapshot of one file with one symbol. -/
def oneSymbol (contents : Bytes) (symbol : Symbol) : SnapshotMethods where
  files := .ok [(symbol.file, Sha256.digest contents)]
  symbols := .ok [symbol]
  find query := .ok (foundSymbols PyStr.asciiCasefold [symbol] query)
  provenance := .null

/-- The snapshot of that file with no overlay. -/
def withoutOverlay (contents : Bytes) (symbol : Symbol) : EffectiveSnapshot where
  base := oneSymbol contents symbol
  baseGeneration := "base"
  sourceHashes := Dict.empty.set symbol.file (hexdigest contents)
  overlay := none

theorem listed_withoutOverlay (contents : Bytes) (symbol : Symbol) :
    Listed (SnapshotMethods.expectedHashes [(symbol.file, Sha256.digest contents)]) (withoutOverlay contents symbol) := by
  refine ⟨rfl, fun file digest known => ?_⟩
  have known : ((Dict.empty : Dict PyStr Bytes).set symbol.file (Sha256.digest contents)).get? file = some digest := known
  show ((Dict.empty : Dict PyStr PyStr).set symbol.file (hexdigest contents)).get? file = _
  rw [Dict.get?_set] at known ⊢
  split at known
  · cases known
    rw [if_pos ‹_›]
    rfl
  · cases known

theorem sameFound_withoutOverlay (contents : Bytes) (symbol : Symbol) (query : PyStr) :
    (withoutOverlay contents symbol).SameFound PyStr.asciiCasefold query := by
  refine @sameFound_of_sameOrder [symbol] _ _ _ rfl ⟨rfl, fun _ => rfl⟩ ?_
  unfold SameOrder foundSymbols
  rw [List.filter_singleton]
  cases named PyStr.asciiCasefold (PyStr.asciiCasefold query) symbol <;> rfl

def secondLine : Symbol where
  name := "f"
  qualifiedName := "f"
  kind := "function"
  file := "a.py"
  line := 2
  endLine := 2

/-- The source files of a repository of one file. -/
def oneFile (contents : Bytes) : SourceTree := fun _ => .contents contents

/-- The request for the context of that function. -/
def limitsOfSample : ContextLimits := ⟨1, 1, 9, none⟩

def lineFeed : Bytes := PyStr.asciiBytes "\nf"

/-- Two lines that a carriage return and a line feed end. -/
def crlf : Bytes := PyStr.asciiBytes "\r\nf"

/-- What is compared of the context of the function without an overlay. -/
def effectiveViews (contents : Bytes) : Option (List ContextSpan) :=
  ((withoutOverlay contents secondLine).contextMany PyStr.asciiCasefold (oneFile contents) ["f"]
    limitsOfSample).toOption.map (List.map ContextSpan.view)

/-- What is compared of the context of the function in the base. -/
def baseViews (contents : Bytes) : Option (List ContextSpan) :=
  ((oneSymbol contents secondLine).contextMany (oneFile contents) ["f"] limitsOfSample none).toOption.map
    (List.map ContextSpan.view)

theorem contextMany_same_lineFeed :
    (∃ spans, (oneSymbol lineFeed secondLine).contextMany (oneFile lineFeed) ["f"] limitsOfSample none = .ok spans ∧
      ∃ spans', (withoutOverlay lineFeed secondLine).contextMany PyStr.asciiCasefold (oneFile lineFeed) ["f"]
        limitsOfSample = .ok spans' ∧ spans'.map ContextSpan.view = spans.map ContextSpan.view) ∧
      Turn.Along ((withoutOverlay lineFeed secondLine).CleanQuery
          (SnapshotMethods.expectedHashes [("a.py", Sha256.digest lineFeed)]) (oneFile lineFeed) limitsOfSample)
        ((oneSymbol lineFeed secondLine).contextQuery
          (SnapshotMethods.expectedHashes [("a.py", Sha256.digest lineFeed)]) (oneFile lineFeed) limitsOfSample)
        ["f"] initial := by
  have same : baseViews lineFeed = effectiveViews lineFeed ∧ (baseViews lineFeed).isSome = true := by decide +kernel
  obtain ⟨views, some⟩ := Option.isSome_iff_exists.1 same.2
  obtain ⟨spans, ran, base⟩ := Except.exists_of_map_toOption some
  obtain ⟨spans', ran', effective⟩ := Except.exists_of_map_toOption (same.1 ▸ some)
  have agree : spans'.map ContextSpan.view = spans.map ContextSpan.view := effective.trans base.symm
  exact ⟨⟨spans, ran, spans', ran', agree⟩,
    ((withoutOverlay lineFeed secondLine).contextMany_same_iff rfl (listed_withoutOverlay _ _) ran
      ⟨sameFound_withoutOverlay _ _ _, fun _ _ => trivial⟩).1 ⟨spans', ran', agree⟩⟩

/-- A carriage return before the line feed moves the offsets of one of the contexts. -/
theorem not_contextMany_same_crlf :
    ¬ ∀ (e : EffectiveSnapshot) all files tree queries limits mapper spans,
      Indexed PyStr.asciiCasefold e.base all → e.base.files = .ok files →
      Listed (SnapshotMethods.expectedHashes files) e → e.base.contextMany tree queries limits mapper = .ok spans →
      ∃ spans', e.contextMany PyStr.asciiCasefold tree queries limits = .ok spans' ∧
        spans'.map ContextSpan.view = spans.map ContextSpan.view := by
  intro same
  have differ : effectiveViews crlf ≠ baseViews crlf ∧ (baseViews crlf).isSome = true := by decide +kernel
  obtain ⟨views, some⟩ := Option.isSome_iff_exists.1 differ.2
  obtain ⟨spans, ran, base⟩ := Except.exists_of_map_toOption some
  obtain ⟨spans', ran', agree⟩ := same (withoutOverlay crlf secondLine) [secondLine] _ (oneFile crlf) ["f"]
    limitsOfSample none spans ⟨rfl, fun _ => rfl⟩ rfl (listed_withoutOverlay _ _) ran
  refine differ.1 ?_
  rw [some, ← base, effectiveViews, ran', ← agree]
  rfl

end EffectiveSnapshot

end SimplicioFast
