import SimplicioFast.Context.Base
import SimplicioFast.Context.Effective
import SimplicioFast.Rust.Context

/-!
# The budgets of a context

The spans that a request for context returns stay within its limits, and each content is a prefix of the source lines
that were asked for.  One turn of the loop keeps this (`Bounded.push`), and so does the whole loop, in each of the three
implementations.
-/

namespace SimplicioFast

open PyStr (utf8 fit decodeIgnore)

namespace Context

variable {tree : SourceTree} {limits : ContextLimits} {st st' : ContextState} {span : ContextSpan}
  {content whole : List Char} {m n consumed tokens : ℕ} {cut : Bool} {maxTokens : Option ℕ}

/-! ## Cuts -/

theorem length_utf8_le_of_prefix (h : content <+: whole) : (utf8 content).length ≤ (utf8 whole).length := by
  obtain ⟨rest, rfl⟩ := h
  rw [PyStr.utf8_append, List.length_append]
  exact Nat.le_add_right _ _

theorem tokensOf_le (size : n ≤ m * 4) : tokensOf n ≤ m := by
  unfold tokensOf
  split_ifs <;> omega

theorem cutTokens_eq_some (h : cutTokens maxTokens consumed whole = some (content, tokens, cut)) :
    content <+: whole ∧ tokens = tokensOf (utf8 content).length ∧
      ∀ m ∈ maxTokens, consumed ≤ m → consumed + tokens ≤ m := by
  unfold cutTokens at h
  cases maxTokens with
  | none =>
    cases h
    refine ⟨List.prefix_rfl, rfl, ?_⟩
    rintro m ⟨⟩
  | some m =>
    dsimp only at h
    split_ifs at h with exceeds
    · cases h
      rw [PyStr.decodeIgnore_take_utf8]
      refine ⟨PyStr.fit_prefix _ _, rfl, ?_⟩
      rintro _ ⟨⟩ left
      have fits := tokensOf_le (PyStr.length_utf8_fit_le ((m - consumed) * 4) whole)
      omega
    · cases h
      refine ⟨List.prefix_rfl, rfl, ?_⟩
      rintro _ ⟨⟩ -
      exact not_lt.1 exceeds

/-! ## Bounded states -/

/-- The content is valid UTF-8 and a prefix of the source lines that were asked for, and its tokens are estimated. -/
structure Excerpt (tree : SourceTree) (limits : ContextLimits) (span : ContextSpan) : Prop where
  valid : PyStr.decodeChars (utf8 span.content) = some span.content
  source : ∃ b text, tree span.file = .contents b ∧ PyStr.decodeChars b = some text ∧
    span.content <+: snippet text span.requestedStartLine
      (min span.requestedEndLine (span.requestedStartLine + limits.maxLines - 1))
  estimate : span.tokens = tokensOf (utf8 span.content).length

/-- The spans stay within the limits of a request. -/
structure Delivered (tree : SourceTree) (limits : ContextLimits) (spans : List ContextSpan) : Prop where
  results : spans.length ≤ limits.maxResults
  bytes : (spans.map fun span => (utf8 span.content).length).sum ≤ limits.maxBytes
  tokens : ∀ m ∈ limits.maxTokens, (spans.map ContextSpan.tokens).sum ≤ m
  excerpts : ∀ span ∈ spans, Excerpt tree limits span

/-- The local variables count what was delivered. -/
structure Bounded (tree : SourceTree) (limits : ContextLimits) (st : ContextState) : Prop where
  delivered : Delivered tree limits st.spans
  consumed : st.consumed = (st.spans.map fun span => (utf8 span.content).length).sum
  consumedTokens : st.consumedTokens = (st.spans.map ContextSpan.tokens).sum

theorem bounded_empty (tree : SourceTree) (limits : ContextLimits) : Bounded tree limits ⟨[], 0, 0, []⟩ where
  delivered := ⟨Nat.zero_le _, Nat.zero_le _, fun m _ => Nat.zero_le m, fun _ mem => by cases mem⟩
  consumed := rfl
  consumedTokens := rfl

theorem Bounded.consumed_le (h : Bounded tree limits st) : st.consumed ≤ limits.maxBytes :=
  h.consumed ▸ h.delivered.bytes

theorem Bounded.consumedTokens_le (h : Bounded tree limits st) (mem : m ∈ limits.maxTokens) : st.consumedTokens ≤ m :=
  h.consumedTokens ▸ h.delivered.tokens m mem

theorem Bounded.push (h : Bounded tree limits st) (room : ¬ limits.maxResults ≤ st.spans.length)
    (excerpt : Excerpt tree limits span) (bytes : st.consumed + (utf8 span.content).length ≤ limits.maxBytes)
    (tokens : ∀ m ∈ limits.maxTokens, st.consumedTokens + span.tokens ≤ m)
    (spans : st'.spans = st.spans ++ [span]) (consumed : st'.consumed = st.consumed + (utf8 span.content).length)
    (consumedTokens : st'.consumedTokens = st.consumedTokens + span.tokens) : Bounded tree limits st' := by
  have size : (st'.spans.map fun span => (utf8 span.content).length).sum = st.consumed + (utf8 span.content).length := by
    rw [spans, List.map_append, List.sum_append, h.consumed, List.map_singleton, List.sum_singleton]
  have estimate : (st'.spans.map ContextSpan.tokens).sum = st.consumedTokens + span.tokens := by
    rw [spans, List.map_append, List.sum_append, h.consumedTokens, List.map_singleton, List.sum_singleton]
  refine ⟨⟨?_, size ▸ bytes, fun m mem => estimate ▸ tokens m mem, ?_⟩, consumed.trans size.symm,
    consumedTokens.trans estimate.symm⟩
  · rw [spans, List.length_append, List.length_singleton]
    exact not_le.1 room
  · rw [spans, List.forall_mem_append, List.forall_mem_singleton]
    exact ⟨h.delivered.excerpts, excerpt⟩

theorem readSource_eq_ok {file : PyStr} {contents : Bytes} {text : List Char}
    (h : readSource tree file = .ok (contents, text)) :
    tree file = .contents contents ∧ PyStr.decodeChars contents = some text := by
  unfold readSource at h
  split at h
  · cases h
  · cases h
  · next b access =>
    split at h
    · cases h
    · next decoded =>
      cases h
      exact ⟨access, decoded⟩

end Context

open Context

/-! ## `Snapshot.context_many` -/

namespace SnapshotMethods

variable {tree : SourceTree} {limits : ContextLimits} {st : ContextState} {t : Turn ContextState}
  {expected : Dict PyStr Bytes} {maxBytes consumed : ℕ} {content whole : List Char} {cut : Bool}

theorem cutBytes_eq_some (h : cutBytes maxBytes consumed whole = some (content, cut)) :
    content <+: whole ∧ (consumed ≤ maxBytes → consumed + (utf8 content).length ≤ maxBytes) := by
  unfold cutBytes at h
  dsimp only at h
  split_ifs at h with exceeds
  · cases h
    rw [PyStr.decodeIgnore_take_utf8]
    refine ⟨PyStr.fit_prefix _ _, fun left => ?_⟩
    have fits := PyStr.length_utf8_fit_le (maxBytes - consumed) whole
    omega
  · cases h
    exact ⟨List.prefix_rfl, fun _ => not_lt.1 exceeds⟩

theorem bounded_contextTurn (h : Bounded tree limits st) (symbol : Symbol)
    (turn : contextTurn expected tree limits st symbol = .ok t) : Bounded tree limits t.state := by
  unfold contextTurn at turn
  split at turn
  · cases turn
    exact h
  · next room =>
    split at turn
    · cases turn
    · obtain ⟨⟨contents, text⟩, read, turn⟩ := bind_ok.1 turn
      obtain ⟨access, decoded⟩ := readSource_eq_ok read
      dsimp only at turn
      split_ifs at turn
      · cases turn
        exact h
      · split at turn
        · cases turn
          exact h
        · next content bytesCut first =>
          split at turn
          · cases turn
            exact h
          · next content' tokens tokensCut second =>
            cases turn
            obtain ⟨front, bytes⟩ := cutBytes_eq_some first
            obtain ⟨front', estimate, left⟩ := cutTokens_eq_some second
            have bytes := bytes h.consumed_le
            have shorter := length_utf8_le_of_prefix front'
            refine h.push room ⟨PyStr.decodeChars_utf8 _, ⟨contents, text, access, decoded, front'.trans front⟩, estimate⟩
              ?_ (fun m mem => left m mem (h.consumedTokens_le mem)) rfl rfl rfl
            show st.consumed + (utf8 content').length ≤ limits.maxBytes
            omega

variable (s : SnapshotMethods)

theorem bounded_contextQuery (h : Bounded tree limits st) (query : PyStr)
    (turn : s.contextQuery expected tree limits st query = .ok t) : Bounded tree limits t.state := by
  obtain ⟨found, -, loop⟩ := bind_ok.1 turn
  exact Turn.scan_invariant (fun _ h symbol _ _ turn => bounded_contextTurn h symbol turn) h loop

theorem delivered_contextMany {queries : List PyStr} {mapper : Option Json} {spans : List ContextSpan}
    (h : s.contextMany tree queries limits mapper = .ok spans) : Delivered tree limits spans := by
  obtain ⟨-, -, h⟩ := bind_ok.1 h
  obtain ⟨-, -, h⟩ := bind_ok.1 h
  obtain ⟨found, -, h⟩ := bind_ok.1 h
  obtain ⟨t, loop, h⟩ := bind_ok.1 h
  cases h
  exact (Turn.scan_invariant (fun _ h query _ _ turn => s.bounded_contextQuery h query turn)
    (bounded_empty tree limits) loop).delivered

end SnapshotMethods

/-! ## `EffectiveSnapshot.context_many` -/

namespace EffectiveSnapshot

variable {tree : SourceTree} {limits : ContextLimits} {st : ContextState} {t : Turn ContextState}
  (casefold : PyStr → PyStr) (e : EffectiveSnapshot)

theorem bounded_contextTurn (h : Bounded tree limits st) (symbol : Symbol)
    (turn : e.contextTurn tree limits st symbol = .ok t) : Bounded tree limits t.state := by
  unfold contextTurn at turn
  split at turn
  · cases turn
    exact h
  · next room =>
    obtain ⟨⟨contents, text⟩, read, turn⟩ := bind_ok.1 turn
    obtain ⟨access, decoded⟩ := readSource_eq_ok read
    dsimp only at turn
    split_ifs at turn
    · cases turn
      exact h
    · cases turn
      exact h
    · rw [PyStr.decodeIgnore_take_utf8] at turn
      split at turn
      · cases turn
        exact h
      · next content tokens tokensCut second =>
        cases turn
        obtain ⟨front, estimate, left⟩ := cutTokens_eq_some second
        have fits := PyStr.length_utf8_fit_le (limits.maxBytes - st.consumed)
          (snippet text symbol.line (boundedEnd limits symbol))
        have shorter := length_utf8_le_of_prefix front
        have consumed := h.consumed_le
        refine h.push room ⟨PyStr.decodeChars_utf8 _,
          ⟨contents, text, access, decoded, front.trans (PyStr.fit_prefix _ _)⟩, estimate⟩
          ?_ (fun m mem => left m mem (h.consumedTokens_le mem)) rfl rfl rfl
        show st.consumed + (utf8 content).length ≤ limits.maxBytes
        omega

theorem bounded_contextQuery (h : Bounded tree limits st) (query : PyStr)
    (turn : e.contextQuery casefold tree limits st query = .ok t) : Bounded tree limits t.state := by
  obtain ⟨found, -, loop⟩ := bind_ok.1 turn
  exact Turn.scan_invariant (fun _ h symbol _ _ turn => e.bounded_contextTurn h symbol turn) h loop

theorem delivered_contextMany {queries : List PyStr} {spans : List ContextSpan}
    (h : e.contextMany casefold tree queries limits = .ok spans) : Delivered tree limits spans := by
  obtain ⟨-, -, h⟩ := bind_ok.1 h
  obtain ⟨t, loop, h⟩ := bind_ok.1 h
  cases h
  exact (Turn.scan_invariant (fun _ h query _ _ turn => e.bounded_contextQuery casefold h query turn)
    (bounded_empty tree limits) loop).delivered

end EffectiveSnapshot

/-! ## `context_with_receipt` -/

namespace RustCore

variable {tree : PyStr → RustAccess} {limits : RustLimits} {st st' : RustState} {t : Turn RustState}
  {files : Dict PyStr Bytes} {span : RustContextSpan} {maxBytes maxTokens consumed tokens m n : ℕ}
  {content whole text : List Char} {digest actual : Bytes} {file : PyStr}

/-- The content is valid UTF-8 and a prefix of the source lines that were asked for, and its tokens are estimated. -/
structure Excerpt (tree : PyStr → RustAccess) (span : RustContextSpan) : Prop where
  valid : PyStr.decodeChars (utf8 span.content) = some span.content
  source : ∃ b text, tree span.file = .contents b ∧ PyStr.decodeChars b = some text ∧
    span.content <+: joined (lines text) (max span.startLine 1 - 1) span.endLine
  estimate : span.tokens = tokensOf (utf8 span.content).length

/-- The spans stay within the limits of a request. -/
structure Delivered (tree : PyStr → RustAccess) (limits : RustLimits) (spans : List RustContextSpan) : Prop where
  results : spans.length ≤ limits.maxResults
  bytes : (spans.map fun span => (utf8 span.content).length).sum ≤ limits.maxBytes
  tokens : (spans.map RustContextSpan.tokens).sum ≤ limits.maxTokens
  excerpts : ∀ span ∈ spans, Excerpt tree span

/-- The local variables count what was delivered, and the cache holds what the files hold. -/
structure Bounded (tree : PyStr → RustAccess) (limits : RustLimits) (st : RustState) : Prop where
  bytes : st.consumedBytes ≤ limits.maxBytes
  tokens : st.consumedTokens ≤ limits.maxTokens
  consumed : st.consumedBytes = (st.spans.map fun span => (utf8 span.content).length).sum
  consumedTokens : st.consumedTokens = (st.spans.map RustContextSpan.tokens).sum
  excerpts : ∀ span ∈ st.spans, Excerpt tree span
  cached : ∀ file actual text, st.cache.get? file = some (actual, text) →
    ∃ b, tree file = .contents b ∧ PyStr.decodeChars b = some text

theorem bounded_empty (tree : PyStr → RustAccess) (limits : RustLimits) : Bounded tree limits {} where
  bytes := Nat.zero_le _
  tokens := Nat.zero_le _
  consumed := rfl
  consumedTokens := rfl
  excerpts := fun _ mem => by cases mem
  cached := fun _ _ _ found => by cases found

theorem tokensOf_le (pos : 0 < m) (size : n ≤ m * 4) : tokensOf n ≤ m := by
  unfold tokensOf
  omega

theorem cutBytes_eq_some (h : cutBytes maxBytes consumed whole = .ok (some content)) :
    content <+: whole ∧ (consumed ≤ maxBytes → consumed + (utf8 content).length ≤ maxBytes) := by
  unfold cutBytes at h
  dsimp only at h
  rw [truncateUtf8_eq] at h
  split_ifs at h with exceeds none
  · cases h
  · cases h
    refine ⟨PyStr.fit_prefix _ _, fun left => ?_⟩
    have fits := PyStr.length_utf8_fit_le (maxBytes - consumed) whole
    omega
  · cases h
    exact ⟨List.prefix_rfl, fun _ => not_lt.1 exceeds⟩

theorem cutTokens_eq_some (h : cutTokens maxTokens consumed whole = .ok (some (content, tokens))) :
    content <+: whole ∧ tokens = tokensOf (utf8 content).length ∧
      (consumed ≤ maxTokens → consumed + tokens ≤ maxTokens) := by
  unfold cutTokens at h
  dsimp only at h
  rw [truncateUtf8_eq] at h
  split_ifs at h with exceeds none
  · cases h
  · cases h
    refine ⟨PyStr.fit_prefix _ _, rfl, fun left => ?_⟩
    have fits := tokensOf_le (Nat.pos_of_ne_zero none)
      (PyStr.length_utf8_fit_le ((maxTokens - consumed) * 4) whole)
    omega
  · cases h
    exact ⟨List.prefix_rfl, rfl, fun _ => not_lt.1 exceeds⟩

theorem Bounded.readSource (h : Bounded tree limits st) (read : readSource tree digest file st = .ok (actual, text, st')) :
    Bounded tree limits st' ∧ st'.spans = st.spans ∧ ∃ b, tree file = .contents b ∧ PyStr.decodeChars b = some text := by
  unfold RustCore.readSource at read
  split at read
  · next found =>
    cases read
    exact ⟨⟨h.bytes, h.tokens, h.consumed, h.consumedTokens, h.excerpts, h.cached⟩, rfl, h.cached _ _ _ found⟩
  · split at read
    · cases read
    · cases read
    · cases read
    · next bytes access =>
      dsimp only at read
      split_ifs at read
      · cases read
      · split at read
        · cases read
        · next text' decoded =>
          cases read
          refine ⟨⟨h.bytes, h.tokens, h.consumed, h.consumedTokens, h.excerpts, ?_⟩, rfl, bytes, access, decoded⟩
          intro file' actual' text' found
          rw [Dict.get?_set] at found
          split_ifs at found with same
          · cases found
            exact same ▸ ⟨bytes, access, decoded⟩
          · exact h.cached _ _ _ found

theorem bounded_contextTurn (h : Bounded tree limits st) (symbol : RustSymbol)
    (turn : contextTurn files tree limits st symbol = .ok t) :
    Bounded tree limits t.state ∧ t.state.spans.length ≤ st.spans.length + 1 := by
  unfold contextTurn at turn
  split at turn
  · cases turn
  · obtain ⟨⟨actual, text, st'⟩, read, turn⟩ := bind_ok.1 turn
    obtain ⟨h, same, b, access, decoded⟩ := h.readSource read
    rw [← same]
    dsimp only at turn
    split at turn
    · cases turn
    · split at turn
      · cases turn
      · obtain ⟨first, cutFirst, turn⟩ := bind_ok.1 turn
        cases first with
        | none =>
          cases turn
          exact ⟨h, Nat.le_succ _⟩
        | some content =>
          obtain ⟨second, cutSecond, turn⟩ := bind_ok.1 turn
          cases second with
          | none =>
            cases turn
            exact ⟨h, Nat.le_succ _⟩
          | some cut =>
            obtain ⟨content', tokens⟩ := cut
            cases turn
            obtain ⟨front, bytes⟩ := cutBytes_eq_some cutFirst
            obtain ⟨front', estimate, left⟩ := cutTokens_eq_some cutSecond
            have bytes := bytes h.bytes
            have left := left h.tokens
            have shorter := length_utf8_le_of_prefix front'
            refine ⟨⟨?_, left, ?_, ?_, ?_, h.cached⟩, ?_⟩
            · show st'.consumedBytes + (utf8 content').length ≤ limits.maxBytes
              omega
            · show st'.consumedBytes + _ = ((st'.spans ++ _).map _).sum
              rw [h.consumed, List.map_append, List.sum_append, List.map_singleton, List.sum_singleton]
            · show st'.consumedTokens + _ = ((st'.spans ++ _).map _).sum
              rw [h.consumedTokens, List.map_append, List.sum_append, List.map_singleton, List.sum_singleton]
            · refine List.forall_mem_append.2 ⟨h.excerpts, List.forall_mem_singleton.2 ?_⟩
              exact ⟨PyStr.decodeChars_utf8 _, ⟨b, text, access, decoded, front'.trans front⟩, estimate⟩
            · show (st'.spans ++ _).length ≤ _
              rw [List.length_append, List.length_singleton]

theorem length_query_le {toLowercase : PyStr → PyStr} {r : SnapshotReader} {term : PyStr} {limit : ℕ}
    {found : List RustSymbol} (h : r.query toLowercase term limit = .ok found) : found.length ≤ limit := by
  obtain ⟨receipt, answered, same⟩ := bind_ok.1 h
  have same : receipt.found = found := Except.ok.inj same
  unfold SnapshotReader.queryFilteredAfter at answered
  obtain ⟨-, -, answered⟩ := bind_ok.1 answered
  obtain ⟨candidates, -, answered⟩ := bind_ok.1 answered
  obtain ⟨scanned, -, answered⟩ := bind_ok.1 answered
  obtain ⟨narrowed, -, answered⟩ := bind_ok.1 answered
  obtain ⟨filtered, -, answered⟩ := bind_ok.1 answered
  obtain ⟨decoded, records, answered⟩ := bind_ok.1 answered
  cases answered
  rw [← same, ← (Except.mapM_eq_ok_iff.1 records).length_eq]
  exact List.length_take_le _ _

theorem delivered_contextWithReceipt {toLowercase : PyStr → PyStr} {r : SnapshotReader} {term : PyStr}
    {receipt : SpanReceipt} (h : contextWithReceipt toLowercase r (some tree) term limits = .ok receipt) :
    Delivered tree limits receipt.spans := by
  unfold contextWithReceipt at h
  split at h
  · cases h
  · obtain ⟨found, -, h⟩ := bind_ok.1 h
    obtain ⟨symbols, queried, h⟩ := bind_ok.1 h
    obtain ⟨t, loop, h⟩ := bind_ok.1 h
    cases h
    have queried : symbols.length ≤ limits.maxResults := by
      cases result : r.query toLowercase term limits.maxResults with
      | error x =>
        rw [result] at queried
        cases queried
      | ok found =>
        rw [result] at queried
        cases queried
        exact length_query_le result
    have bounded := Turn.scan_invariant (I := Bounded tree limits)
      (fun _ h symbol _ _ turn => (bounded_contextTurn h symbol turn).1)
      (bounded_empty tree limits) loop
    have count := Turn.scan_measure_le (I := Bounded tree limits) (f := fun st : RustState => st.spans.length)
      (fun _ h symbol _ _ turn => bounded_contextTurn h symbol turn) (bounded_empty tree limits) loop
    refine ⟨?_, bounded.consumed ▸ bounded.bytes, bounded.consumedTokens ▸ bounded.tokens, bounded.excerpts⟩
    exact (count.trans_eq (Nat.zero_add _)).trans queried

end RustCore

/-! ## All implementations -/

/-- The contexts of the three implementations stay within the limits of their requests. -/
theorem contexts_delivered (casefold toLowercase : PyStr → PyStr) :
    (∀ (s : SnapshotMethods) tree queries limits mapper spans,
      s.contextMany tree queries limits mapper = .ok spans → Delivered tree limits spans) ∧
    (∀ (e : EffectiveSnapshot) tree queries limits spans,
      e.contextMany casefold tree queries limits = .ok spans → Delivered tree limits spans) ∧
    ∀ (r : RustCore.SnapshotReader) tree term limits receipt,
      RustCore.contextWithReceipt toLowercase r (some tree) term limits = .ok receipt →
      RustCore.Delivered tree limits receipt.spans :=
  ⟨fun s _ _ _ _ _ h => s.delivered_contextMany h, fun e _ _ _ _ h => e.delivered_contextMany casefold h,
    fun _ _ _ _ _ h => RustCore.delivered_contextWithReceipt h⟩

def sampleSource : Bytes := utf8 "aé\nb".toList

def sampleFunction : Symbol where
  name := "f"
  qualifiedName := "f"
  kind := "function"
  file := "a.py"
  line := 1
  endLine := 1

def sampleMethods : SnapshotMethods where
  files := .ok [("a.py", Sha256.digest sampleSource)]
  symbols := .ok [sampleFunction]
  find _ := .ok [sampleFunction]
  provenance := .null

def sampleEffective : EffectiveSnapshot where
  base := sampleMethods
  baseGeneration := "base"
  sourceHashes := Dict.empty.set "a.py" (hexdigest sampleSource)
  overlay := none

def sampleReader : RustCore.SnapshotReader where
  bytes := Struct.blob 16 (Bytes.packLE 4 0 ++ Bytes.packLE 4 4) ++ Struct.blob 48 (Sha256.digest sampleSource) ++
    ([4, 1, 4, 1, 4, 0, 0, 1, 1, 2].flatMap (Bytes.packLE 4) ++ Struct.blob 32 []) ++ PyStr.asciiBytes "a.pyf"
  sections := (((Dict.empty : Dict PyStr (ℕ × ℕ)).set "files" (0, 64)).set "symbols" (64, 72)).set "strings" (136, 5)
  digest := []
  indexes := ⟨[("f", [0])], [("f", [0])], [], []⟩

/-- Two bytes of the first line are asked for, and one is delivered. -/
theorem contexts_delivered_sample :
    (∃ spans, sampleMethods.contextMany (fun _ => .contents sampleSource) ["f"] ⟨1, 1, 2, none⟩ none = .ok spans ∧
      spans.map ContextSpan.content = [['a']] ∧
      Delivered (fun _ => .contents sampleSource) ⟨1, 1, 2, none⟩ spans) ∧
    (∃ spans, sampleEffective.contextMany PyStr.asciiCasefold (fun _ => .contents sampleSource) ["f"] ⟨1, 1, 2, none⟩ =
      .ok spans ∧ spans.map ContextSpan.content = [['a']] ∧
      Delivered (fun _ => .contents sampleSource) ⟨1, 1, 2, none⟩ spans) ∧
    ∃ receipt, RustCore.contextWithReceipt PyStr.asciiCasefold sampleReader (some fun _ => .contents sampleSource) "f"
      ⟨1, 1, 2, 10⟩ = .ok receipt ∧ receipt.spans.map RustCore.RustContextSpan.content = [['a']] ∧
      RustCore.Delivered (fun _ => .contents sampleSource) ⟨1, 1, 2, 10⟩ receipt.spans := by
  obtain ⟨ofSnapshot, ofEffective, ofReader⟩ := contexts_delivered PyStr.asciiCasefold PyStr.asciiCasefold
  refine ⟨?_, ?_, ?_⟩
  · obtain ⟨spans, ran, contents⟩ := Except.exists_of_map_toOption (x := sampleMethods.contextMany (fun _ => .contents sampleSource) ["f"]
      ⟨1, 1, 2, none⟩ none) (f := List.map ContextSpan.content) (b := [['a']]) (by decide +kernel)
    exact ⟨spans, ran, contents, ofSnapshot _ _ _ _ _ _ ran⟩
  · obtain ⟨spans, ran, contents⟩ := Except.exists_of_map_toOption (x := sampleEffective.contextMany PyStr.asciiCasefold
      (fun _ => .contents sampleSource) ["f"] ⟨1, 1, 2, none⟩) (f := List.map ContextSpan.content) (b := [['a']])
      (by decide +kernel)
    exact ⟨spans, ran, contents, ofEffective _ _ _ _ _ ran⟩
  · obtain ⟨receipt, ran, contents⟩ := Except.exists_of_map_toOption (x := RustCore.contextWithReceipt PyStr.asciiCasefold sampleReader
      (some fun _ => .contents sampleSource) "f" ⟨1, 1, 2, 10⟩)
      (f := fun receipt => receipt.spans.map RustCore.RustContextSpan.content) (b := [['a']]) (by decide +kernel)
    exact ⟨receipt, ran, contents, ofReader _ _ _ _ _ ran⟩

end SimplicioFast
