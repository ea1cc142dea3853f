import Mathlib.Algebra.Order.BigOperators.Group.List
import SimplicioFast.Context.Agreement

/-!
# The loop of a context

What the loops of `Snapshot.context_many` and `EffectiveSnapshot.context_many` have in common: which sources they accept,
at which offset they say that a line begins, and what a turn does (`ContextLoop`).  Each turn delivers at most one span,
whose other fields follow from its content (`SpanOf`).
-/

namespace SimplicioFast

open PyStr (utf8 fit decodeIgnore)

namespace Context

open SnapshotMethods (Seen)

variable {tree : SourceTree} {limits : ContextLimits} {st : ContextState} {symbol : Symbol} {span : ContextSpan}
  {content whole text : List Char} {contents : Bytes} {tokens : ℕ} {cut : Bool} {t : Turn ContextState}

/-- The source lines of a symbol, as far as they are delivered at most. -/
def excerpt (limits : ContextLimits) (symbol : Symbol) (text : List Char) : List Char :=
  snippet text symbol.line (boundedEnd limits symbol)

/-- Whether lines of the symbol are left out of its excerpt, or the excerpt is cut. -/
def isPartial (limits : ContextLimits) (symbol : Symbol) (cut : Bool) : Bool :=
  decide (boundedEnd limits symbol < (symbol.endLine : ℤ)) || cut

/-- The first line that is omitted when the excerpt is delivered as this content. -/
def firstOmitted (limits : ContextLimits) (symbol : Symbol) (content : List Char) (cut : Bool) : ℤ :=
  omittedStart symbol.line (deliveredEnd symbol.line (boundedEnd limits symbol) content cut) content cut

/-- A span of a symbol; what it says of its content follows from it. -/
structure SpanOf (offset : Bytes → List Char → ℤ → ℕ) (limits : ContextLimits) (symbol : Symbol) (contents : Bytes)
    (text : List Char) (span : ContextSpan) : Prop where
  file : span.file = symbol.file
  requestedStart : span.requestedStartLine = symbol.line
  requestedEnd : span.requestedEndLine = symbol.endLine
  start : span.startLine = symbol.line
  content : span.content <+: excerpt limits symbol text
  startByte : span.startByte = offset contents text symbol.line
  endByte : span.endByte = span.startByte + (utf8 span.content).length
  contentSha256 : span.contentSha256 = hexdigest (utf8 span.content)
  fidelity : span.fidelity =
    if isPartial limits symbol (decide (span.content ≠ excerpt limits symbol text)) then ("partial" : PyStr) else "complete"
  omitted : span.omittedRanges = omittedRanges (isPartial limits symbol (decide (span.content ≠ excerpt limits symbol text)))
    (firstOmitted limits symbol span.content (decide (span.content ≠ excerpt limits symbol text))) symbol.endLine

def pushed (limits : ContextLimits) (symbol : Symbol) (span : ContextSpan) (tokens : ℕ) (st : ContextState) :
    ContextState where
  spans := st.spans ++ [span]
  consumed := st.consumed + (utf8 span.content).length
  consumedTokens := st.consumedTokens + tokens
  seen := (symbol.file, (symbol.line : ℤ), boundedEnd limits symbol) :: st.seen

/-- The bytes or the tokens of a request are used up. -/
def UsedUp (limits : ContextLimits) (st : ContextState) : Prop :=
  limits.maxBytes ≤ st.consumed ∨ ∃ m ∈ limits.maxTokens, m ≤ st.consumedTokens

/-- A loop over symbols that delivers their source lines. -/
structure ContextLoop (tree : SourceTree) where
  /-- The source that the loop accepts for a file. -/
  Current : PyStr → Bytes → List Char → Prop
  /-- The offset at which it says that a line begins. -/
  offset : Bytes → List Char → ℤ → ℕ
  /-- The span of a symbol with a content and its tokens. -/
  span : ContextLimits → Symbol → Bytes → List Char → List Char → ℕ → ContextSpan
  body : ContextLimits → ContextState → Symbol → Except ContextRaised (Turn ContextState)
  source : ∀ {file contents text}, Current file contents text →
    tree file = .contents contents ∧ PyStr.decodeChars contents = some text
  spanOf : ∀ {limits symbol contents text content} (tokens : ℕ), content <+: excerpt limits symbol text →
    SpanOf offset limits symbol contents text (span limits symbol contents text content tokens)
  content_span : ∀ {limits symbol contents text content tokens},
    (span limits symbol contents text content tokens).content = content
  span_congr : ∀ {limits limits' : ContextLimits}, limits.maxLines = limits'.maxLines → span limits = span limits'
  full : ∀ {limits : ContextLimits} {st : ContextState} (symbol : Symbol), limits.maxResults ≤ st.spans.length →
    body limits st symbol = .ok (.returned st)
  /-- A turn skips an excerpt that was delivered before, ends the loop, or delivers a span. -/
  steps : ∀ {limits : ContextLimits} {st symbol t}, body limits st symbol = .ok t → ¬ limits.maxResults ≤ st.spans.length →
    ∃ contents text, Current symbol.file contents text ∧ ((Seen limits st symbol ∧ t = .next st) ∨
      (¬ Seen limits st symbol ∧ ((UsedUp limits st ∧ t = .returned st) ∨ ∃ content tokens,
        content <+: excerpt limits symbol text ∧
          t = .next (pushed limits symbol (span limits symbol contents text content tokens) tokens st))))
  skips : ∀ {limits : ContextLimits} {st symbol contents text}, Current symbol.file contents text →
    ¬ limits.maxResults ≤ st.spans.length → Seen limits st symbol → body limits st symbol = .ok (.next st)
  delivers : ∀ {limits : ContextLimits} {st symbol contents text}, Current symbol.file contents text →
    ¬ limits.maxResults ≤ st.spans.length → ¬ Seen limits st symbol → limits.maxTokens = none →
    st.consumed + (utf8 (excerpt limits symbol text)).length < limits.maxBytes → body limits st symbol =
      .ok (.next (pushed limits symbol (span limits symbol contents text (excerpt limits symbol text)
        (tokensOf (utf8 (excerpt limits symbol text)).length)) (tokensOf (utf8 (excerpt limits symbol text)).length) st))

/-! ## Cuts -/

theorem ne_iff_length_lt (h : content <+: whole) : content ≠ whole ↔ (utf8 content).length < (utf8 whole).length := by
  obtain ⟨rest, rfl⟩ := h
  rw [PyStr.utf8_append, List.length_append, Nat.lt_add_right_iff_pos, Nat.pos_iff_ne_zero, Ne, Ne, length_utf8_eq_zero_iff,
    List.self_eq_append_right]

theorem usedUp_of_cutTokens {maxTokens : Option ℕ} {consumed : ℕ} (h : cutTokens maxTokens consumed whole = none) :
    ∃ m ∈ maxTokens, m ≤ consumed := by
  unfold cutTokens at h
  cases maxTokens with
  | none => cases h
  | some m =>
    dsimp only at h
    split_ifs at h with exceeds none
    exact ⟨m, rfl, by omega⟩

theorem decide_ne_eq (h : content <+: whole) :
    decide (content ≠ whole) = decide ((utf8 content).length < (utf8 whole).length) :=
  decide_eq_decide.2 (ne_iff_length_lt h)

end Context

open Context

/-! ## `Snapshot.context_many` -/

namespace SnapshotMethods

variable {tree : SourceTree} {limits : ContextLimits} {st : ContextState} {symbol : Symbol}
  {expected : Dict PyStr Bytes} {t : Turn ContextState} {content content' whole text : List Char} {contents : Bytes}
  {tokens maxBytes consumed : ℕ} {cut bytesCut tokensCut : Bool}

/-- The source of a file whose digest is the one of the snapshot. -/
def Current (expected : Dict PyStr Bytes) (tree : SourceTree) (file : PyStr) (contents : Bytes) (text : List Char) : Prop :=
  readSource tree file = .ok (contents, text) ∧ expected.get? file = some (Sha256.digest contents)

theorem contextTurn_eq (room : ¬ limits.maxResults ≤ st.spans.length) (current : Current expected tree symbol.file contents text) :
    contextTurn expected tree limits st symbol = .ok (finish limits symbol contents text st) := by
  unfold contextTurn finish
  rw [if_neg room, current.2]
  dsimp only
  rw [current.1]
  show (if Sha256.digest contents ≠ Sha256.digest contents then _ else _) = _
  rw [if_neg (not_not.2 rfl)]
  split_ifs
  · rfl
  · cases cutBytes _ _ _ with
    | none => rfl
    | some first =>
      dsimp only
      cases cutTokens _ _ _ <;> rfl

theorem cut_of_cutBytes (h : cutBytes maxBytes consumed whole = some (content, cut)) :
    cut = decide ((utf8 content).length < (utf8 whole).length) := by
  unfold cutBytes at h
  dsimp only at h
  split_ifs at h with exceeds none
  · cases h
    rw [PyStr.decodeIgnore_take_utf8]
    have fits := PyStr.length_utf8_fit_le (maxBytes - consumed) whole
    exact (decide_eq_true (by omega)).symm
  · cases h
    rw [decide_eq_false (Nat.lt_irrefl _)]

theorem usedUp_of_cutBytes (h : cutBytes maxBytes consumed whole = none) : maxBytes ≤ consumed := by
  unfold cutBytes at h
  dsimp only at h
  split_ifs at h with exceeds none
  omega

def spanOf (limits : ContextLimits) (symbol : Symbol) (contents : Bytes) (text content : List Char) (tokens : ℕ) :
    ContextSpan :=
  let cut := decide (content ≠ excerpt limits symbol text)
  { symbol := symbol.qualifiedName
    kind := symbol.kind
    file := symbol.file
    startLine := symbol.line
    endLine := deliveredEnd symbol.line (boundedEnd limits symbol) content cut
    sourceSha256 := hexdigest contents
    content
    symbolId := symbol.symbolId
    tokens
    requestedStartLine := symbol.line
    requestedEndLine := symbol.endLine
    startByte := sourceStart contents symbol.line
    endByte := sourceStart contents symbol.line + (utf8 content).length
    contentSha256 := hexdigest (utf8 content)
    fidelity := if isPartial limits symbol cut then "partial" else "complete"
    omittedRanges := omittedRanges (isPartial limits symbol cut) (firstOmitted limits symbol content cut) symbol.endLine
    needsBroaderContext := isPartial limits symbol cut }

theorem deliver_eq (tokens : ℕ) (st : ContextState) : deliver limits symbol contents content tokens
    (decide (content ≠ excerpt limits symbol text)) st =
      pushed limits symbol (spanOf limits symbol contents text content tokens) tokens st := rfl

theorem cut_of_cuts (first : cutBytes limits.maxBytes st.consumed whole = some (content, bytesCut))
    (second : cutTokens limits.maxTokens st.consumedTokens content = some (content', tokens, tokensCut)) :
    content' <+: whole ∧ (bytesCut || tokensCut) = decide (content' ≠ whole) := by
  obtain ⟨front, -⟩ := cutBytes_eq_some first
  obtain ⟨front', -⟩ := cutTokens_eq_some second
  refine ⟨front'.trans front, ?_⟩
  have shorter := length_utf8_le_of_prefix front
  have shorter' := length_utf8_le_of_prefix front'
  rw [decide_ne_eq (front'.trans front), cut_of_cutBytes first, length_lt_iff_of_cutTokens second, ← Bool.decide_or,
    decide_eq_decide]
  omega

theorem finish_cases (unseen : ¬ Seen limits st symbol) :
    (UsedUp limits st ∧ finish limits symbol contents text st = .returned st) ∨ ∃ content tokens, content <+: excerpt limits symbol text ∧ finish limits symbol contents text st =
      .next (pushed limits symbol (spanOf limits symbol contents text content tokens) tokens st) := by
  have unseen : (symbol.file, (symbol.line : ℤ), boundedEnd limits symbol) ∉ st.seen := unseen
  unfold finish
  rw [if_neg unseen]
  split
  · next none => exact .inl ⟨.inl (usedUp_of_cutBytes none), rfl⟩
  · next first =>
    split
    · next none => exact .inl ⟨.inr (usedUp_of_cutTokens none), rfl⟩
    · next second =>
      obtain ⟨front, cut⟩ := cut_of_cuts first second
      rw [cut]
      exact .inr ⟨_, _, front, rfl⟩

/-- The loop of `Snapshot.context_many`. -/
def contextLoop (expected : Dict PyStr Bytes) (tree : SourceTree) : ContextLoop tree where
  Current := Current expected tree
  offset contents _ line := sourceStart contents line
  span := spanOf
  body := contextTurn expected tree
  source current := readSource_eq_ok current.1
  spanOf _ front := ⟨rfl, rfl, rfl, rfl, front, rfl, rfl, rfl, rfl, rfl⟩
  content_span := rfl
  span_congr same := by
    unfold spanOf firstOmitted isPartial excerpt boundedEnd
    rw [same]
  full symbol full := if_pos full
  steps := by
    intro limits st symbol t turn room
    rcases contextTurn_cases turn with ⟨full, -⟩ | ⟨-, contents, text, read, known, rfl⟩
    · exact absurd full room
    · refine ⟨contents, text, ⟨read, known⟩, ?_⟩
      by_cases seen : Seen limits st symbol
      · exact .inl ⟨seen, if_pos seen⟩
      · exact .inr ⟨seen, finish_cases seen⟩
  skips := by
    intro limits st symbol contents text current room seen
    rw [contextTurn_eq room current]
    exact congrArg Except.ok (if_pos seen)
  delivers := by
    intro limits st symbol contents text current room unseen noTokens fits
    have unseen : (symbol.file, (symbol.line : ℤ), boundedEnd limits symbol) ∉ st.seen := unseen
    have first : cutBytes limits.maxBytes st.consumed (excerpt limits symbol text) =
        some (excerpt limits symbol text, false) := if_neg (by omega)
    rw [contextTurn_eq room current, finish, if_neg unseen, ← excerpt, first, noTokens, ← deliver_eq,
      decide_eq_false (not_not.2 rfl)]
    rfl

end SnapshotMethods

/-! ## `EffectiveSnapshot.context_many` -/

namespace EffectiveSnapshot

open SnapshotMethods (Seen)

variable {tree : SourceTree} {limits : ContextLimits} {st : ContextState} {symbol : Symbol} {t : Turn ContextState}
  {content whole text : List Char} {contents : Bytes} {tokens : ℕ} {tokensCut : Bool} (e : EffectiveSnapshot)

/-- The source of a file whose digest is the one of the generation. -/
def Current (tree : SourceTree) (file : PyStr) (contents : Bytes) (text : List Char) : Prop :=
  readSource tree file = .ok (contents, text) ∧ e.expectedHash file = some (hexdigest contents)

theorem contextTurn_cases (turn : e.contextTurn tree limits st symbol = .ok t)
    (room : ¬ limits.maxResults ≤ st.spans.length) :
    ∃ contents text, e.Current tree symbol.file contents text ∧ t = e.finish limits symbol contents text st := by
  have again := turn
  unfold contextTurn at turn
  rw [if_neg room] at turn
  obtain ⟨⟨contents, text⟩, read, turn⟩ := bind_ok.1 turn
  dsimp only at turn
  split at turn
  · cases turn
  · next fresh =>
    have fresh := (not_not.1 fresh).symm
    rw [e.contextTurn_eq room read fresh] at again
    exact ⟨contents, text, ⟨read, fresh⟩, (Except.ok.inj again).symm⟩

def spanOf (limits : ContextLimits) (symbol : Symbol) (contents : Bytes) (text content : List Char) (tokens : ℕ) :
    ContextSpan :=
  let cut := decide (content ≠ excerpt limits symbol text)
  { symbol := symbol.qualifiedName
    kind := symbol.kind
    file := symbol.file
    startLine := symbol.line
    endLine := deliveredEnd symbol.line (boundedEnd limits symbol) content cut
    sourceSha256 := hexdigest contents
    content
    tokens
    baseGeneration := some e.baseGeneration
    overlayGeneration := e.overlayGeneration
    requestedStartLine := symbol.line
    requestedEndLine := symbol.endLine
    startByte := prefixBytes text symbol.line
    endByte := prefixBytes text symbol.line + (utf8 content).length
    contentSha256 := hexdigest (utf8 content)
    fidelity := if isPartial limits symbol cut then "partial" else "complete"
    omittedRanges := omittedRanges (isPartial limits symbol cut) (firstOmitted limits symbol content cut) symbol.endLine
    needsBroaderContext := isPartial limits symbol cut }

theorem deliver_eq (second : cutTokens limits.maxTokens st.consumedTokens
    (fit (limits.maxBytes - st.consumed) (excerpt limits symbol text)) = some (content, tokens, tokensCut)) :
    content <+: excerpt limits symbol text ∧
      e.deliver limits symbol contents text (excerpt limits symbol text) content tokens tokensCut st =
        pushed limits symbol (e.spanOf limits symbol contents text content tokens) tokens st := by
  obtain ⟨front, -⟩ := cutTokens_eq_some second
  have whole := PyStr.fit_prefix (limits.maxBytes - st.consumed) (excerpt limits symbol text)
  have shorter := length_utf8_le_of_prefix front
  have shorter' := length_utf8_le_of_prefix whole
  have cut : (decide ((utf8 (decodeIgnore ((utf8 (excerpt limits symbol text)).take (limits.maxBytes - st.consumed)))).length <
      (utf8 (excerpt limits symbol text)).length) || tokensCut) = decide (content ≠ excerpt limits symbol text) := by
    rw [decide_ne_eq (front.trans whole), PyStr.decodeIgnore_take_utf8, length_lt_iff_of_cutTokens second, ← Bool.decide_or,
      decide_eq_decide]
    omega
  have absorb (a b : Bool) : ((a || b) && b) = b := by cases a <;> cases b <;> rfl
  refine ⟨front.trans whole, ?_⟩
  dsimp only [deliver]
  rw [Bool.or_assoc, cut, ← decide_ne_eq (front.trans whole), absorb]
  rfl

theorem finish_cases (unseen : ¬ Seen limits st symbol) :
    (UsedUp limits st ∧ e.finish limits symbol contents text st = .returned st) ∨ ∃ content tokens, content <+: excerpt limits symbol text ∧ e.finish limits symbol contents text st =
      .next (pushed limits symbol (e.spanOf limits symbol contents text content tokens) tokens st) := by
  have unseen : (symbol.file, (symbol.line : ℤ), boundedEnd limits symbol) ∉ st.seen := unseen
  unfold finish
  rw [if_neg unseen]
  split
  · next full => exact .inl ⟨.inl (by omega), rfl⟩
  · split
    · next none => exact .inl ⟨.inr (usedUp_of_cutTokens none), rfl⟩
    · next second =>
      obtain ⟨front, same⟩ := e.deliver_eq second
      exact .inr ⟨_, _, front, congrArg Turn.next same⟩

theorem le_sub_of_add_lt {c n m : ℕ} (h : c + n < m) : n ≤ m - c := by omega

theorem sub_ne_zero_of_add_lt {c n m : ℕ} (h : c + n < m) : m - c ≠ 0 := by omega

/-- The loop of `EffectiveSnapshot.context_many`. -/
def contextLoop (tree : SourceTree) : ContextLoop tree where
  Current := e.Current tree
  offset _ text line := prefixBytes text line
  span := e.spanOf
  body := e.contextTurn tree
  source current := readSource_eq_ok current.1
  spanOf _ front := ⟨rfl, rfl, rfl, rfl, front, rfl, rfl, rfl, rfl, rfl⟩
  content_span := rfl
  span_congr same := by
    unfold spanOf firstOmitted isPartial excerpt boundedEnd
    rw [same]
  full symbol full := e.contextTurn_of_full full
  steps := by
    intro limits st symbol t turn room
    obtain ⟨contents, text, current, rfl⟩ := e.contextTurn_cases turn room
    refine ⟨contents, text, current, ?_⟩
    by_cases seen : Seen limits st symbol
    · exact .inl ⟨seen, if_pos seen⟩
    · exact .inr ⟨seen, e.finish_cases seen⟩
  skips := by
    intro limits st symbol contents text current room seen
    rw [e.contextTurn_eq room current.1 current.2]
    exact congrArg Except.ok (if_pos seen)
  delivers := by
    intro limits st symbol contents text current room unseen noTokens fits
    have unseen : (symbol.file, (symbol.line : ℤ), boundedEnd limits symbol) ∉ st.seen := unseen
    have second : cutTokens limits.maxTokens st.consumedTokens
        (fit (limits.maxBytes - st.consumed) (excerpt limits symbol text)) =
          some (excerpt limits symbol text, tokensOf (utf8 (excerpt limits symbol text)).length, false) := by
      rw [noTokens, PyStr.fit_of_le (le_sub_of_add_lt fits)]
      rfl
    rw [e.contextTurn_eq room current.1 current.2, finish, if_neg unseen, if_neg (sub_ne_zero_of_add_lt fits), ← excerpt, second,
      ← (e.deliver_eq second).2]

end EffectiveSnapshot

/-! ## Runs -/

namespace Context.ContextLoop

open SnapshotMethods (Seen)

variable {tree : SourceTree} {limits : ContextLimits} {st : ContextState} {symbol : Symbol} {t : Turn ContextState}
  {text : List Char} {contents : Bytes} {found before after : List Symbol} (L : ContextLoop tree)

/-- The sources of these symbols are accepted. -/
def AllCurrent (symbols : List Symbol) : Prop := ∀ p ∈ symbols, ∃ contents text, L.Current p.file contents text

theorem forall_spans {P : ContextSpan → Prop} (start : ∀ span ∈ st.spans, P span)
    (each : ∀ before symbol after contents text content tokens, found = before ++ symbol :: after → L.AllCurrent before →
      L.Current symbol.file contents text → content <+: excerpt limits symbol text →
        P (L.span limits symbol contents text content tokens))
    (scanned : Turn.scan (L.body limits) found st = .ok t) : ∀ span ∈ t.state.spans, P span := by
  -- the symbols that the loop has passed have accepted sources
  have run (done rest : List Symbol) (st : ContextState) (split : found = done ++ rest) (passed : L.AllCurrent done)
      (start : ∀ span ∈ st.spans, P span) (scanned : Turn.scan (L.body limits) rest st = .ok t) :
      ∀ span ∈ t.state.spans, P span := by
    induction rest generalizing done st with
    | nil =>
      cases scanned
      exact start
    | cons symbol rest ih =>
      rw [Turn.scan] at scanned
      cases turn : L.body limits st symbol with
      | error x =>
        rw [turn] at scanned
        cases scanned
      | ok t' =>
        rw [turn] at scanned
        by_cases full : limits.maxResults ≤ st.spans.length
        · cases (L.full symbol full).symm.trans turn
          cases scanned
          exact start
        · obtain ⟨contents, text, current, what⟩ := L.steps turn full
          have passed' : L.AllCurrent (done ++ [symbol]) := by
            intro p mem
            rcases List.mem_append.1 mem with mem | mem
            · exact passed p mem
            · rw [List.mem_singleton.1 mem]
              exact ⟨contents, text, current⟩
          have split' : found = (done ++ [symbol]) ++ rest := by rw [split, List.append_assoc, List.singleton_append]
          rcases what with ⟨-, rfl⟩ | ⟨-, ⟨-, rfl⟩ | ⟨content, tokens, front, rfl⟩⟩
          · exact ih _ st split' passed' start scanned
          · cases scanned
            exact start
          · refine ih _ _ split' passed' ?_ scanned
            rw [pushed, List.forall_mem_append, List.forall_mem_singleton]
            exact ⟨start, each done symbol rest contents text content tokens split passed current front⟩
  exact run [] found st rfl (fun p mem => absurd mem List.not_mem_nil) start scanned

/-- The limits on the lines of a span only. -/
def lineLimits (m : ℕ) : ContextLimits := ⟨0, m, 0, none⟩

theorem exists_turn (m : ℕ) (current : L.Current symbol.file contents text) (st : ContextState) :
    ∃ st', st.spans.length ≤ st'.spans.length ∧
      (∀ key ∈ st'.seen, key ∈ st.seen ∨ key = (symbol.file, (symbol.line : ℤ), boundedEnd (lineLimits m) symbol)) ∧
      ∃ room, ∀ limits : ContextLimits, limits.maxLines = m → limits.maxTokens = none → room < limits.maxBytes →
        st.spans.length < limits.maxResults → L.body limits st symbol = .ok (.next st') := by
  have same {limits : ContextLimits} (lines : limits.maxLines = m) : limits.maxLines = (lineLimits m).maxLines := lines
  have stop {limits : ContextLimits} (lines : limits.maxLines = m) :
      boundedEnd limits symbol = boundedEnd (lineLimits m) symbol := by
    unfold boundedEnd
    rw [same lines]
  have whole {limits : ContextLimits} (lines : limits.maxLines = m) :
      excerpt limits symbol text = excerpt (lineLimits m) symbol text := by
    unfold excerpt
    rw [stop lines]
  by_cases seen : Seen (lineLimits m) st symbol
  · refine ⟨st, le_rfl, fun key mem => .inl mem, 0, fun limits lines _ _ room => L.skips current (not_le.2 room) ?_⟩
    unfold Seen
    rw [stop lines]
    exact seen
  · refine ⟨pushed (lineLimits m) symbol (L.span (lineLimits m) symbol contents text (excerpt (lineLimits m) symbol text)
      (tokensOf (utf8 (excerpt (lineLimits m) symbol text)).length))
      (tokensOf (utf8 (excerpt (lineLimits m) symbol text)).length) st, ?_, fun key mem => ?_,
      st.consumed + (utf8 (excerpt (lineLimits m) symbol text)).length, fun limits lines tokens bytes room => ?_⟩
    · rw [pushed, List.length_append]
      exact Nat.le_add_right _ _
    · rcases List.mem_cons.1 mem with rfl | mem
      · exact .inr rfl
      · exact .inl mem
    · have unseen : ¬ Seen limits st symbol := by
        unfold Seen
        rw [stop lines]
        exact seen
      rw [L.delivers current (not_le.2 room) unseen tokens (by rw [whole lines]; exact bytes), whole lines,
        L.span_congr (same lines)]
      unfold pushed
      rw [stop lines]

theorem exists_scan (m : ℕ) (current : L.AllCurrent before) (st : ContextState) :
    ∃ st', st.spans.length ≤ st'.spans.length ∧ (∀ key ∈ st'.seen, key ∈ st.seen ∨
        ∃ p ∈ before, key = (p.file, (p.line : ℤ), boundedEnd (lineLimits m) p)) ∧
      ∃ room, ∀ limits : ContextLimits, limits.maxLines = m → limits.maxTokens = none → room < limits.maxBytes →
        st'.spans.length < limits.maxResults → Turn.scan (L.body limits) before st = .ok (.next st') := by
  induction before generalizing st with
  | nil => exact ⟨st, le_rfl, fun key mem => .inl mem, 0, fun _ _ _ _ _ => rfl⟩
  | cons symbol before ih =>
    obtain ⟨⟨contents, text, here⟩, rest⟩ := List.forall_mem_cons.1 current
    obtain ⟨st₁, grows, keys, room₁, turn⟩ := L.exists_turn m here st
    obtain ⟨st', grows', keys', room, scanned⟩ := ih rest st₁
    refine ⟨st', grows.trans grows', fun key mem => ?_, max room₁ room, fun limits lines tokens bytes left => ?_⟩
    · rcases keys' key mem with mem | ⟨p, mem, same⟩
      · rcases keys key mem with mem | same
        · exact .inl mem
        · exact .inr ⟨symbol, List.mem_cons_self, same⟩
      · exact .inr ⟨p, List.mem_cons_of_mem _ mem, same⟩
    · rw [Turn.scan, turn limits lines tokens (by omega) (by omega)]
      exact scanned limits lines tokens (by omega) left

def Positive (limits : ContextLimits) : Prop :=
  0 < limits.maxResults ∧ 0 < limits.maxLines ∧ 0 < limits.maxBytes ∧ limits.maxTokens = none

theorem boundedEnd_lineLimits {m : ℕ} (wide : symbol.endLine < m) : boundedEnd (lineLimits m) symbol = symbol.endLine := by
  show min (symbol.endLine : ℤ) ((symbol.line : ℤ) + m - 1) = symbol.endLine
  omega

theorem scan_of_full (full : limits.maxResults ≤ st.spans.length) (symbols : List Symbol) :
    ∃ t, Turn.scan (L.body limits) symbols st = .ok t ∧ t.state = st := by
  cases symbols with
  | nil => exact ⟨_, rfl, rfl⟩
  | cons symbol symbols =>
    rw [Turn.scan, L.full symbol full]
    exact ⟨_, rfl, rfl⟩

theorem exists_delivered (passed : L.AllCurrent before) (current : L.Current symbol.file contents text)
    (first : ∀ p ∈ before, ¬ (p.file = symbol.file ∧ p.line = symbol.line ∧ p.endLine = symbol.endLine)) :
    ∃ limits t, Positive limits ∧ excerpt limits symbol text = snippet text symbol.line symbol.endLine ∧
      Turn.scan (L.body limits) (before ++ symbol :: after) ⟨[], 0, 0, []⟩ = .ok t ∧
        ∃ tokens, L.span limits symbol contents text (excerpt limits symbol text) tokens ∈ t.state.spans := by
  obtain ⟨m, wide⟩ : ∃ m, ∀ p ∈ before ++ [symbol], p.endLine < m := by
    refine ⟨((before ++ [symbol]).map Symbol.endLine).sum + 1, fun p mem => Nat.lt_succ_of_le ?_⟩
    exact List.le_sum_of_mem (List.mem_map_of_mem mem)
  obtain ⟨st, -, keys, room, scanned⟩ := L.exists_scan m passed ⟨[], 0, 0, []⟩
  have stop := boundedEnd_lineLimits (wide symbol (List.mem_append_right _ (List.mem_singleton_self symbol)))
  have unseen : ¬ Seen (lineLimits m) st symbol := by
    intro seen
    rcases keys _ seen with mem | ⟨p, mem, same⟩
    · cases mem
    · rw [stop, boundedEnd_lineLimits (wide p (List.mem_append_left _ mem))] at same
      simp only [Prod.mk.injEq, Nat.cast_inj] at same
      exact first p mem ⟨same.1.symm, same.2.1.symm, same.2.2.symm⟩
  obtain ⟨limits, lines, none_, bytes, results⟩ : ∃ limits : ContextLimits, limits.maxLines = m ∧ limits.maxTokens = none ∧
      limits.maxBytes = room + st.consumed + (utf8 (excerpt (lineLimits m) symbol text)).length + 1 ∧
        limits.maxResults = st.spans.length + 1 := ⟨⟨_, _, _, _⟩, rfl, rfl, rfl, rfl⟩
  have same : boundedEnd limits symbol = boundedEnd (lineLimits m) symbol := by
    unfold boundedEnd
    rw [lines]
    rfl
  have whole : excerpt limits symbol text = excerpt (lineLimits m) symbol text := by
    unfold excerpt
    rw [same]
  have turn := L.delivers current (by omega) (show ¬ Seen limits st symbol by unfold Seen; rwa [same]) none_
    (show st.consumed + (utf8 (excerpt limits symbol text)).length < limits.maxBytes by rw [whole]; omega)
  have full : limits.maxResults ≤ (pushed limits symbol (L.span limits symbol contents text (excerpt limits symbol text)
      (tokensOf (utf8 (excerpt limits symbol text)).length)) (tokensOf (utf8 (excerpt limits symbol text)).length)
        st).spans.length := by
    rw [pushed, List.length_append, results]
    rfl
  obtain ⟨t, rest, last⟩ := L.scan_of_full full after
  have lines' : 0 < m := Nat.zero_lt_of_lt (wide symbol (List.mem_append_right _ (List.mem_singleton_self symbol)))
  refine ⟨limits, t, ⟨by omega, by omega, by omega, none_⟩, ?_, ?_, tokensOf (utf8 (excerpt limits symbol text)).length, ?_⟩
  · rw [excerpt, same, stop]
  · rw [Turn.scan_append (scanned limits lines none_ (by omega) (by omega)), Turn.scan, turn]
    exact rest
  · rw [last, pushed]
    exact List.mem_append_right _ (List.mem_singleton_self _)

end Context.ContextLoop

/-! ## Requests -/

namespace Context

theorem checkLimits_of_positive {limits : ContextLimits} (positive : ContextLoop.Positive limits) :
    checkLimits limits = .ok () := by
  obtain ⟨results, lines, bytes, tokens⟩ := positive
  unfold checkLimits
  rw [if_neg]
  rw [tokens]
  rintro (h | h | h | ⟨m, ⟨⟩, -⟩) <;> omega

theorem mapError_eq_ok_iff {ε δ α : Type*} {x : Except ε α} {f : ε → δ} {a : α} : x.mapError f = .ok a ↔ x = .ok a := by
  cases x with
  | error e => exact iff_of_false nofun nofun
  | ok b =>
    show Except.ok b = Except.ok a ↔ Except.ok b = Except.ok a
    rw [Except.ok.injEq, Except.ok.injEq]

theorem scan_singleton {ε σ α : Type*} {body : σ → α → Except ε (Turn σ)} {a : α} {s : σ} {t : Turn σ}
    (turn : body s a = .ok t) : ∃ t', Turn.scan body [a] s = .ok t' ∧ t'.state = t.state := by
  rw [Turn.scan, turn]
  cases t with
  | returned s' => exact ⟨_, rfl, rfl⟩
  | next s' => exact ⟨_, rfl, rfl⟩

end Context

namespace SnapshotMethods

variable {tree : SourceTree} {limits : ContextLimits} {queries : List PyStr} {mapper : Option Json}
  {spans : List ContextSpan} {files : List (PyStr × Bytes)} (s : SnapshotMethods)

theorem forall_spans {P : ContextSpan → Prop} (each : ∀ files query before symbol after contents text content tokens,
      s.files = .ok files → s.find query = .ok (before ++ symbol :: after) →
        (contextLoop (expectedHashes files) tree).AllCurrent before →
          Current (expectedHashes files) tree symbol.file contents text → content <+: excerpt limits symbol text →
            P (spanOf limits symbol contents text content tokens))
    (ran : s.contextMany tree queries limits mapper = .ok spans) : ∀ span ∈ spans, P span := by
  obtain ⟨-, -, ran⟩ := bind_ok.1 ran
  obtain ⟨-, -, ran⟩ := bind_ok.1 ran
  obtain ⟨files, listed, ran⟩ := bind_ok.1 ran
  obtain ⟨t, loop, ran⟩ := bind_ok.1 ran
  cases ran
  have listed := mapError_eq_ok_iff.1 listed
  have start : ∀ span ∈ (⟨[], 0, 0, []⟩ : ContextState).spans, P span := fun span mem => by cases mem
  refine Turn.scan_invariant (I := fun st => ∀ span ∈ st.spans, P span) (fun st start query _ t turn => ?_) start loop
  obtain ⟨found, hits, scanned⟩ := bind_ok.1 turn
  have hits := mapError_eq_ok_iff.1 hits
  refine (contextLoop (expectedHashes files) tree).forall_spans start ?_ scanned
  intro before symbol after contents text content tokens split passed current front
  exact each files query before symbol after contents text content tokens listed (split ▸ hits) passed current front

theorem contextMany_of_scan {query : PyStr} {found : List Symbol} {t : Turn ContextState}
    (positive : ContextLoop.Positive limits) (listed : s.files = .ok files) (hits : s.find query = .ok found)
    (scanned : Turn.scan (contextTurn (expectedHashes files) tree limits) found ⟨[], 0, 0, []⟩ = .ok t) :
    s.contextMany tree [query] limits none = .ok t.state.spans := by
  have turn : s.contextQuery (expectedHashes files) tree limits ⟨[], 0, 0, []⟩ query = .ok t := by
    unfold contextQuery
    rw [hits]
    exact scanned
  obtain ⟨t', loop, same⟩ := scan_singleton turn
  refine bind_ok.2 ⟨(), checkLimits_of_positive positive, ?_⟩
  refine bind_ok.2 ⟨(), rfl, ?_⟩
  refine bind_ok.2 ⟨files, by rw [listed]; rfl, ?_⟩
  exact bind_ok.2 ⟨t', loop, by rw [same]; rfl⟩

end SnapshotMethods

namespace EffectiveSnapshot

variable {tree : SourceTree} {limits : ContextLimits} {queries : List PyStr} {spans : List ContextSpan}
  {casefold : PyStr → PyStr} (e : EffectiveSnapshot)

theorem forall_spans {P : ContextSpan → Prop} (each : ∀ query before symbol after contents text content tokens,
      e.find casefold query = .ok (before ++ symbol :: after) → (e.contextLoop tree).AllCurrent before →
        e.Current tree symbol.file contents text → content <+: excerpt limits symbol text →
          P (e.spanOf limits symbol contents text content tokens))
    (ran : e.contextMany casefold tree queries limits = .ok spans) : ∀ span ∈ spans, P span := by
  obtain ⟨-, -, ran⟩ := bind_ok.1 ran
  obtain ⟨t, loop, ran⟩ := bind_ok.1 ran
  cases ran
  have start : ∀ span ∈ (⟨[], 0, 0, []⟩ : ContextState).spans, P span := fun span mem => by cases mem
  refine Turn.scan_invariant (I := fun st => ∀ span ∈ st.spans, P span) (fun st start query _ t turn => ?_) start loop
  obtain ⟨found, hits, scanned⟩ := bind_ok.1 turn
  have hits := mapError_eq_ok_iff.1 hits
  refine (e.contextLoop tree).forall_spans start ?_ scanned
  intro before symbol after contents text content tokens split passed current front
  exact each query before symbol after contents text content tokens (split ▸ hits) passed current front

theorem contextMany_of_scan {query : PyStr} {found : List Symbol} {t : Turn ContextState}
    (positive : ContextLoop.Positive limits) (hits : e.find casefold query = .ok found)
    (scanned : Turn.scan (e.contextTurn tree limits) found ⟨[], 0, 0, []⟩ = .ok t) :
    e.contextMany casefold tree [query] limits = .ok t.state.spans := by
  have turn : e.contextQuery casefold tree limits ⟨[], 0, 0, []⟩ query = .ok t := by
    unfold contextQuery
    rw [hits]
    exact scanned
  obtain ⟨t', loop, same⟩ := scan_singleton turn
  refine bind_ok.2 ⟨(), checkLimits_of_positive positive, ?_⟩
  exact bind_ok.2 ⟨t', loop, by rw [same]; rfl⟩

end EffectiveSnapshot

end SimplicioFast
