import SimplicioFast.Lib.Lists
import SimplicioFast.Rust.Context
import SimplicioFast.Rust.Pages
import SimplicioFast.Rust.Written
import SimplicioFast.Snapshot.RoundTrip

/-!
# Panics of the Rust context

`context_with_receipt` cuts the lines of a symbol out of the lines of its file.  It checks that the first line is in the
file but not that the last one is, and a slice out of bounds panics.  The line numbers of a snapshot follow the lines of
Python, which end with a lone carriage return too; `str::lines` splits at line feeds only.

The context never panics exactly when no query finds a symbol that begins in its file and ends behind it, after symbols
that lie in theirs (`never_panics_iff`).
-/

namespace SimplicioFast

namespace RustCore

open PyStr (utf8)

variable {files : Dict PyStr Bytes} {tree : PyStr → RustAccess} {limits : RustLimits} {st st' : RustState}
  {symbol : RustSymbol} {symbols : List RustSymbol} {t : Turn RustState}

/-- The number of lines of a file of the snapshot, when its source is the one of the snapshot and a text. -/
def sourceLines (files : Dict PyStr Bytes) (tree : PyStr → RustAccess) (file : PyStr) : Option ℕ :=
  match files.get? file, tree file with
  | some digest, .contents bytes =>
    if Sha256.digest bytes = digest then (PyStr.decodeChars bytes).map fun text => (lines text).length else none
  | _, _ => none

/-- The last line of a symbol that a context can ask for; a line number has 32 bits. -/
def lastLine (symbol : RustSymbol) : ℕ := min symbol.endLine (2 ^ 32 - 2)

/-- The lines of the symbol lie in its file. -/
def Fits (files : Dict PyStr Bytes) (tree : PyStr → RustAccess) (symbol : RustSymbol) : Prop :=
  ∃ n, sourceLines files tree symbol.file = some n ∧ max symbol.line 1 ≤ lastLine symbol ∧ lastLine symbol ≤ n

/-- The symbol begins in its file and ends behind it. -/
def Overshoots (files : Dict PyStr Bytes) (tree : PyStr → RustAccess) (symbol : RustSymbol) : Prop :=
  ∃ n, sourceLines files tree symbol.file = some n ∧ max symbol.line 1 ≤ n ∧ n < lastLine symbol

theorem boundedEnd_le (limits : RustLimits) (symbol : RustSymbol) : boundedEnd limits symbol ≤ lastLine symbol := by
  unfold boundedEnd lastLine saturatingAdd
  omega

theorem boundedEnd_eq (wide : limits.maxLines = 2 ^ 32 - 1) : boundedEnd limits symbol = lastLine symbol := by
  unfold boundedEnd lastLine saturatingAdd
  omega

/-! ## Sources -/

/-- The texts in the cache are the sources of the snapshot. -/
def Sound (files : Dict PyStr Bytes) (tree : PyStr → RustAccess) (st : RustState) : Prop :=
  ∀ file actual text, st.cache.get? file = some (actual, text) →
    sourceLines files tree file = some (lines text).length

variable {file : PyStr} {digest actual : Bytes} {text : List Char}

theorem readSource_sound (sound : Sound files tree st) (known : files.get? file = some digest)
    (read : readSource tree digest file st = .ok (actual, text, st')) :
    sourceLines files tree file = some (lines text).length ∧ Sound files tree st' := by
  unfold readSource at read
  split at read
  · rename_i found
    cases read
    exact ⟨sound _ _ _ found, sound⟩
  · split at read
    · cases read
    · cases read
    · cases read
    · rename_i bytes there
      dsimp only at read
      split_ifs at read with same
      · cases read
      split at read
      · cases read
      · rename_i text decoded
        cases read
        have here : sourceLines files tree file = some (lines text).length := by
          unfold sourceLines
          rw [known, there]
          dsimp only
          rw [if_pos (not_ne_iff.1 same), decoded, Option.map_some]
        refine ⟨here, fun file' actual' text' found => ?_⟩
        dsimp only at found
        by_cases eq : file' = file
        · subst eq
          rw [Dict.get?_set_self] at found
          cases found
          exact here
        · rw [Dict.get?_set_of_ne _ _ eq] at found
          exact sound _ _ _ found

theorem exists_readSource {n : ℕ} (source : sourceLines files tree file = some n) (st : RustState) :
    ∃ digest actual text st', files.get? file = some digest ∧
      readSource tree digest file st = .ok (actual, text, st') := by
  unfold sourceLines at source
  split at source
  · rename_i digest bytes known there
    split_ifs at source with same
    obtain ⟨text, decoded, -⟩ := Option.map_eq_some_iff.1 source
    have read : ∃ found, readSource tree digest file st = .ok found := by
      unfold readSource
      cases st.cache.get? file with
      | some found => exact ⟨_, rfl⟩
      | none =>
        rw [there]
        dsimp only
        rw [if_neg (not_ne_iff.2 same), decoded]
        exact ⟨_, rfl⟩
    obtain ⟨⟨actual, text, st'⟩, read⟩ := read
    exact ⟨digest, actual, text, st', known, read⟩
  · cases source

theorem readSource_ne_panicked : readSource tree digest file st ≠ .error .panicked := by
  unfold readSource
  split
  · nofun
  · split
    · nofun
    · nofun
    · nofun
    · dsimp only
      split_ifs
      · nofun
      · split <;> nofun

/-! ## A turn -/

theorem exists_cutBytes (maxBytes consumed : ℕ) (content : List Char) :
    ∃ kept, cutBytes maxBytes consumed content = .ok kept := by
  unfold cutBytes
  simp only [truncateUtf8_eq]
  split_ifs <;> exact ⟨_, rfl⟩

theorem exists_cutTokens (maxTokens consumed : ℕ) (content : List Char) :
    ∃ kept, cutTokens maxTokens consumed content = .ok kept := by
  unfold cutTokens
  simp only [truncateUtf8_eq]
  split_ifs <;> exact ⟨_, rfl⟩

theorem contextTurn_eq (known : files.get? symbol.file = some digest)
    (read : readSource tree digest symbol.file st = .ok (actual, text, st')) :
    contextTurn files tree limits st symbol =
      if (lines text).length < max symbol.line 1 ∨ boundedEnd limits symbol < max symbol.line 1 then
        invalid "symbol line bounds out of range"
      else if (lines text).length < boundedEnd limits symbol then .error .panicked
      else cutBytes limits.maxBytes st'.consumedBytes
          (joined (lines text) (max symbol.line 1 - 1) (boundedEnd limits symbol)) >>= fun kept => match kept with
        | none => .ok (.returned st')
        | some content => cutTokens limits.maxTokens st'.consumedTokens content >>= fun kept => match kept with
          | none => .ok (.returned st')
          | some (content, tokens) => .ok (.next (deliver symbol actual (boundedEnd limits symbol) content tokens st')) := by
  unfold contextTurn
  rw [known]
  dsimp only
  rw [read]
  rfl

theorem exists_source (sound : Sound files tree st)
    (turn : ∀ e, contextTurn files tree limits st symbol ≠ .error (.error e)) :
    ∃ digest actual text st', files.get? symbol.file = some digest ∧
      readSource tree digest symbol.file st = .ok (actual, text, st') ∧
        sourceLines files tree symbol.file = some (lines text).length ∧ Sound files tree st' := by
  cases known : files.get? symbol.file with
  | none =>
    refine absurd ?_ (turn (.invalid "symbol references unknown file"))
    unfold contextTurn
    rw [known]
    rfl
  | some digest =>
    cases read : readSource tree digest symbol.file st with
    | error e =>
      cases e with
      | panicked => exact absurd read readSource_ne_panicked
      | error e =>
        refine absurd ?_ (turn e)
        unfold contextTurn
        rw [known]
        dsimp only
        rw [read]
        rfl
    | ok found =>
      obtain ⟨actual, text, st'⟩ := found
      obtain ⟨source, sound'⟩ := readSource_sound sound known read
      exact ⟨digest, actual, text, st', rfl, read, source, sound'⟩

theorem contextTurn_ok (sound : Sound files tree st) (turn : contextTurn files tree limits st symbol = .ok t) :
    Sound files tree t.state ∧ ∃ n, sourceLines files tree symbol.file = some n ∧
      max symbol.line 1 ≤ boundedEnd limits symbol ∧ boundedEnd limits symbol ≤ n := by
  obtain ⟨digest, actual, text, st', known, read, source, sound'⟩ := exists_source sound fun e error => by
    cases turn.symm.trans error
  rw [contextTurn_eq known read] at turn
  split_ifs at turn with outside behind
  · cases turn
  refine ⟨?_, _, source, by omega, by omega⟩
  obtain ⟨kept, -, turn⟩ := bind_ok.1 turn
  cases kept with
  | none =>
    cases turn
    exact sound'
  | some content =>
    obtain ⟨kept, -, turn⟩ := bind_ok.1 turn
    cases kept with
    | none =>
      cases turn
      exact sound'
    | some kept =>
      cases turn
      exact sound'

theorem contextTurn_panicked_iff (sound : Sound files tree st) :
    contextTurn files tree limits st symbol = .error .panicked ↔
      ∃ n, sourceLines files tree symbol.file = some n ∧ max symbol.line 1 ≤ n ∧ n < boundedEnd limits symbol := by
  constructor
  · intro turn
    obtain ⟨digest, actual, text, st', known, read, source, -⟩ := exists_source sound fun e error => by
      cases turn.symm.trans error
    rw [contextTurn_eq known read] at turn
    split_ifs at turn with outside behind
    · cases turn
    · exact ⟨_, source, by omega, behind⟩
    · obtain ⟨kept, cut⟩ := exists_cutBytes limits.maxBytes st'.consumedBytes
        (joined (lines text) (max symbol.line 1 - 1) (boundedEnd limits symbol))
      rw [cut] at turn
      cases kept with
      | none => cases turn
      | some content =>
        obtain ⟨kept, cut⟩ := exists_cutTokens limits.maxTokens st'.consumedTokens content
        change (cutTokens limits.maxTokens st'.consumedTokens content >>= _) = _ at turn
        rw [cut] at turn
        cases kept with
        | none => cases turn
        | some kept => cases turn
  · rintro ⟨n, source, first, last⟩
    obtain ⟨digest, actual, text, st', known, read⟩ := exists_readSource source st
    obtain ⟨source', -⟩ := readSource_sound sound known read
    obtain rfl := Option.some.inj (source.symm.trans source')
    rw [contextTurn_eq known read, if_neg (by omega), if_pos last]

theorem exists_contextTurn (sound : Sound files tree st) (fits : Fits files tree symbol) :
    ∃ st', Sound files tree st' ∧ ∃ room, ∀ limits : RustLimits, limits.maxLines = 2 ^ 32 - 1 →
      room ≤ limits.maxBytes → room ≤ limits.maxTokens → contextTurn files tree limits st symbol = .ok (.next st') := by
  obtain ⟨n, source, first, last⟩ := fits
  obtain ⟨digest, actual, text, st', known, read⟩ := exists_readSource source st
  obtain ⟨source', sound'⟩ := readSource_sound sound known read
  obtain rfl := Option.some.inj (source.symm.trans source')
  obtain ⟨content, cut⟩ : ∃ content, joined (lines text) (max symbol.line 1 - 1) (lastLine symbol) = content := ⟨_, rfl⟩
  refine ⟨deliver symbol actual (lastLine symbol) content (tokensOf (utf8 content).length) st', sound',
    st'.consumedBytes + (utf8 content).length + (st'.consumedTokens + tokensOf (utf8 content).length),
    fun limits wide bytes tokens => ?_⟩
  rw [contextTurn_eq known read, boundedEnd_eq wide, cut, if_neg (by omega), if_neg (by omega)]
  refine bind_ok.2 ⟨some content, if_neg (by omega), ?_⟩
  exact bind_ok.2 ⟨some (content, tokensOf (utf8 content).length), if_neg (by omega), rfl⟩

/-! ## The loop -/

theorem scan_next (sound : Sound files tree st)
    (scanned : Turn.scan (contextTurn files tree limits) symbols st = .ok (.next st')) :
    Sound files tree st' ∧ ∀ symbol ∈ symbols, ∃ n, sourceLines files tree symbol.file = some n ∧
      max symbol.line 1 ≤ boundedEnd limits symbol ∧ boundedEnd limits symbol ≤ n := by
  induction symbols generalizing st with
  | nil =>
    cases scanned
    exact ⟨sound, List.forall_mem_nil _⟩
  | cons symbol symbols ih =>
    rw [Turn.scan] at scanned
    cases turn : contextTurn files tree limits st symbol with
    | error e =>
      rw [turn] at scanned
      cases scanned
    | ok t =>
      rw [turn] at scanned
      obtain ⟨sound', here⟩ := contextTurn_ok sound turn
      cases t with
      | returned st₁ => cases scanned
      | next st₁ =>
        obtain ⟨last, rest⟩ := ih sound' scanned
        exact ⟨last, List.forall_mem_cons.2 ⟨here, rest⟩⟩

theorem exists_scan (sound : Sound files tree st) (fits : ∀ symbol ∈ symbols, Fits files tree symbol) :
    ∃ st', Sound files tree st' ∧ ∃ room, ∀ limits : RustLimits, limits.maxLines = 2 ^ 32 - 1 →
      room ≤ limits.maxBytes → room ≤ limits.maxTokens →
        Turn.scan (contextTurn files tree limits) symbols st = .ok (.next st') := by
  induction symbols generalizing st with
  | nil => exact ⟨st, sound, 0, fun _ _ _ _ => rfl⟩
  | cons symbol symbols ih =>
    obtain ⟨first, rest⟩ := List.forall_mem_cons.1 fits
    obtain ⟨st₁, sound₁, room₁, turn⟩ := exists_contextTurn sound first
    obtain ⟨st', sound', room, scanned⟩ := ih sound₁ rest
    refine ⟨st', sound', max room₁ room, fun limits wide bytes tokens => ?_⟩
    rw [Turn.scan, turn limits wide (by omega) (by omega)]
    exact scanned limits wide (by omega) (by omega)

theorem exists_first_overshoot {front back : List RustSymbol}
    (before : ∀ p ∈ front, Fits files tree p ∨ Overshoots files tree p) (last : Overshoots files tree symbol) :
    ∃ front' s back', front ++ symbol :: back = front' ++ s :: back' ∧ (∀ p ∈ front', Fits files tree p) ∧
      Overshoots files tree s := by
  have mem : symbol ∈ front ++ [symbol] := List.mem_append_right _ (List.mem_singleton_self symbol)
  obtain ⟨front', s, back', split, found, none⟩ := exists_first mem last
  refine ⟨front', s, back' ++ back, ?_, fun p mem => ?_, found⟩
  · rw [← List.singleton_append, ← List.append_assoc, split, List.append_assoc, List.cons_append]
  · -- a symbol that overshoots is not among the first ones, so it is one of those that fit
    have listed : p ∈ front ++ [symbol] := by
      rw [split]
      exact List.mem_append_left _ mem
    rcases List.mem_append.1 listed with inside | here
    · exact (before p inside).resolve_right (none p mem)
    · rw [List.mem_singleton.1 here] at mem
      exact absurd last (none symbol mem)

def Positive (limits : RustLimits) : Prop :=
  0 < limits.maxResults ∧ 0 < limits.maxLines ∧ 0 < limits.maxBytes ∧ 0 < limits.maxTokens

theorem exists_scan_panicked_iff {n : ℕ} (pos : 0 < n) : (∃ limits : RustLimits, limits.maxResults = n ∧
      Positive limits ∧ Turn.scan (contextTurn files tree limits) symbols {} = .error .panicked) ↔
    ∃ before s after, symbols = before ++ s :: after ∧ (∀ p ∈ before, Fits files tree p) ∧
      Overshoots files tree s := by
  have start : Sound files tree {} := fun file actual text found => by cases found
  constructor
  · rintro ⟨limits, -, -, scanned⟩
    obtain ⟨front, s, back, st, rfl, before, turn⟩ := Turn.exists_of_scan_error scanned
    obtain ⟨sound, fitting⟩ := scan_next start before
    obtain ⟨n, source, first, last⟩ := (contextTurn_panicked_iff sound).1 turn
    refine exists_first_overshoot (fun p mem => ?_) ⟨n, source, first, last.trans_le (boundedEnd_le limits s)⟩
    obtain ⟨m, source', first', last'⟩ := fitting p mem
    have le := boundedEnd_le limits p
    by_cases inside : lastLine p ≤ m
    · exact .inl ⟨m, source', first'.trans le, inside⟩
    · exact .inr ⟨m, source', first'.trans last', not_le.1 inside⟩
  · rintro ⟨before, s, after, rfl, fits, m, source, first, last⟩
    obtain ⟨st', sound', room, scanned⟩ := exists_scan start fits
    refine ⟨⟨n, 2 ^ 32 - 1, room + 1, room + 1⟩, rfl, ⟨pos, Nat.succ_pos _, Nat.succ_pos _, Nat.succ_pos _⟩, ?_⟩
    have panics : contextTurn files tree ⟨n, 2 ^ 32 - 1, room + 1, room + 1⟩ st' s = .error .panicked :=
      (contextTurn_panicked_iff sound').2 ⟨m, source, first, last.trans_eq (boundedEnd_eq rfl).symm⟩
    rw [Turn.scan_append (scanned _ rfl (Nat.le_succ _) (Nat.le_succ _)), Turn.scan, panics]

/-! ## The context -/

section Context

variable {r : SnapshotReader} {toLowercase : PyStr → PyStr} {term : PyStr}

/-- The sources of the tree are the ones of the snapshot. -/
def Matches (r : SnapshotReader) (tree : PyStr → RustAccess) : Prop :=
  ∀ found, r.fileInfo = .ok found → ∀ path digest, (fileDigests found).get? path = some digest →
    ∃ bytes, tree path = .contents bytes ∧ Sha256.digest bytes = digest

theorem contextWithReceipt_panicked_iff : contextWithReceipt toLowercase r (some tree) term limits = .error .panicked ↔
    Positive limits ∧ ∃ found symbols, r.fileInfo = .ok found ∧ r.query toLowercase term limits.maxResults = .ok symbols ∧
      Turn.scan (contextTurn (fileDigests found) tree limits) symbols {} = .error .panicked := by
  unfold contextWithReceipt
  by_cases positive : Positive limits
  · have none : ¬ (limits.maxResults = 0 ∨ limits.maxLines = 0 ∨ limits.maxBytes = 0 ∨ limits.maxTokens = 0) := by
      unfold Positive at positive
      omega
    rw [if_neg none, and_iff_right positive]
    cases r.fileInfo with
    | error e => exact iff_of_false (by nofun) (by rintro ⟨_, _, ⟨⟩, -⟩)
    | ok found =>
      cases r.query toLowercase term limits.maxResults with
      | error e => exact iff_of_false (by nofun) (by rintro ⟨_, _, -, ⟨⟩, -⟩)
      | ok symbols =>
        show (Turn.scan (contextTurn (fileDigests found) tree limits) symbols {} >>= _) = _ ↔ _
        cases scanned : Turn.scan (contextTurn (fileDigests found) tree limits) symbols {} with
        | ok t => exact iff_of_false (by nofun) (by
            rintro ⟨_, _, ⟨⟩, ⟨⟩, again⟩
            cases scanned.symm.trans again)
        | error e =>
          constructor
          · intro same
            cases same
            exact ⟨found, symbols, rfl, rfl, scanned⟩
          · rintro ⟨_, _, ⟨⟩, ⟨⟩, again⟩
            cases scanned.symm.trans again
            rfl
  · have none : limits.maxResults = 0 ∨ limits.maxLines = 0 ∨ limits.maxBytes = 0 ∨ limits.maxTokens = 0 := by
      unfold Positive at positive
      omega
    rw [if_pos none]
    exact iff_of_false (by nofun) fun h => positive h.1

/-- The context of a source tree never panics exactly when no query finds a symbol that begins in its file and ends
behind it, behind symbols that lie in their files. -/
theorem never_panics_iff (toLowercase : PyStr → PyStr) (r : SnapshotReader) (tree : PyStr → RustAccess) :
    (∀ term limits, contextWithReceipt toLowercase r (some tree) term limits ≠ .error .panicked) ↔
      ∀ found term n before s after, r.fileInfo = .ok found → r.query toLowercase term n = .ok (before ++ s :: after) →
        (∀ p ∈ before, Fits (fileDigests found) tree p) → ¬ Overshoots (fileDigests found) tree s := by
  constructor
  · intro never found term n before s after files found_ fits overshoots
    have pos : 0 < n := by
      refine Nat.pos_of_ne_zero fun zero => ?_
      subst zero
      cases found_
    obtain ⟨limits, rfl, positive, scanned⟩ := (exists_scan_panicked_iff pos).2 ⟨before, s, after, rfl, fits, overshoots⟩
    exact never term limits (contextWithReceipt_panicked_iff.2 ⟨positive, found, _, files, found_, scanned⟩)
  · intro all term limits panics
    obtain ⟨positive, found, symbols, files, found_, scanned⟩ := contextWithReceipt_panicked_iff.1 panics
    obtain ⟨before, s, after, rfl, fits, overshoots⟩ :=
      (exists_scan_panicked_iff positive.1).1 ⟨limits, rfl, positive, scanned⟩
    exact all found term limits.maxResults before s after files found_ fits overshoots

/-! ## A carriage return -/

/-- A function of two lines for Python, on one line for `str::lines`. -/
def carriageSource : Bytes := PyStr.asciiBytes "def f():\r    pass"

def carriageEntry : FileEntry := ⟨"f.py", Sha256.digest carriageSource, 17, [{
  name := "f"
  qualifiedName := "f"
  kind := "function"
  file := "f.py"
  line := 1
  endLine := 2 }]⟩

/-- The indexes of the snapshot of the file. -/
def carriageIndexes : PersistedIndexes where
  exact_ := [("f", [0])]
  names := [("f", [0])]
  paths := [("f.py", [0])]
  kinds := [("function", [0])]

/-- What `serde_json` reads in the sections of the snapshot. -/
def carriageSerde : Serde := ⟨fun _ => some [], fun _ => some carriageIndexes, fun _ => none⟩

def carriageTree (path : PyStr) : RustAccess := if path = "f.py" then .contents carriageSource else .missing

theorem built_carriage : ∃ payload, SnapshotFormat.buildV2 PyStr.asciiCasefold [carriageEntry] [] none = .ok payload := by
  have ran : (SnapshotFormat.buildV2 PyStr.asciiCasefold [carriageEntry] [] none).toOption.map (fun _ => ()) = some () := by
    rw [SnapshotFormat.buildV2_eq_draft]
    decide +kernel
  obtain ⟨payload, built, -⟩ := Except.exists_of_map_toOption ran
  exact ⟨payload, built⟩

/-- The function as the Rust reader decodes it. -/
def carriageSymbol : RustSymbol where
  name := "f"
  qualifiedName := "f"
  kind := "function"
  file := "f.py"
  line := 1
  endLine := 2
  symbolId := PyStr.ofChars (Bytes.hex (List.replicate 32 0))
  signature := ""

theorem exists_carriage : ∃ payload r, SnapshotFormat.buildV2 PyStr.asciiCasefold [carriageEntry] [] none = .ok payload ∧
    fromStorage carriageSerde payload = .ok r ∧ r.fileInfo = .ok [("f.py", Sha256.digest carriageSource)] ∧
      r.query id "f" 1 = .ok [carriageSymbol] := by
  obtain ⟨payload, built⟩ := built_carriage
  have sorted : SnapshotFormat.sortedSymbols PyStr.asciiCasefold [carriageEntry] = carriageEntry.symbols := rfl
  have reads : SerdeReads carriageSerde PyStr.asciiCasefold
      (SnapshotFormat.sortedSymbols PyStr.asciiCasefold [carriageEntry]) [] [] carriageIndexes :=
    ⟨fun _ _ => rfl, fun _ _ _ => rfl⟩
  obtain ⟨r, opened, -, persisted, files, count, symbols⟩ := exists_reader_of_buildV2 built reads rfl (by rw [sorted]; decide)
  refine ⟨payload, r, built, opened, ?_, ?_⟩
  · rw [files, List.map_singleton, carriageEntry, Struct.blob_eq_self (Sha256.length_digest _)]
  · have decoded : r.symbolAt 0 = .ok carriageSymbol := by
      rw [symbols 0 _ rfl]
      decide
    have found : r.candidates (id "f") none none = [0] := by
      unfold SnapshotReader.candidates SnapshotReader.selected SnapshotReader.select
      rw [persisted]
      decide
    have page : (r.queryFilteredAfter id "f" none none 1 none).map (fun page => (page.found, page.nextCursor)) =
        (([0] : List ℕ).mapM r.symbolAt).map fun found => (found, SnapshotReader.pageCursor 1 [0]) :=
      SnapshotReader.queryFilteredAfter_eq opened Nat.one_ne_zero none (by rw [found]; rfl)
    rw [List.mapM_cons, decoded] at page
    unfold SnapshotReader.query
    cases answered : r.queryFilteredAfter id "f" none none 1 none with
    | error e =>
      rw [answered] at page
      cases page
    | ok receipt =>
      rw [answered] at page
      exact congrArg (Except.map Prod.fst) page

/-- A context of the snapshot of the file panics. -/
theorem panics_carriage : ¬ ∀ (serde : Serde) (raw : Bytes) (r : SnapshotReader) (toLowercase : PyStr → PyStr)
    (tree : PyStr → RustAccess), fromStorage serde raw = .ok r → Matches r tree → ∀ term limits,
      contextWithReceipt toLowercase r (some tree) term limits ≠ .error .panicked := by
  intro never
  obtain ⟨payload, r, -, opened, files, found⟩ := exists_carriage
  have same : fileDigests [("f.py", Sha256.digest carriageSource)] =
      (Dict.empty : Dict PyStr Bytes).set "f.py" (Sha256.digest carriageSource) := rfl
  have matching : Matches r carriageTree := by
    intro found' files' path digest known
    cases files.symm.trans files'
    rw [same] at known
    by_cases here : path = "f.py"
    · rw [here, Dict.get?_set_self] at known
      refine ⟨carriageSource, if_pos here, Option.some.inj known⟩
    · rw [Dict.get?_set_of_ne _ _ here] at known
      cases known
  refine never _ payload r id carriageTree opened matching "f" ⟨1, 10, 100, 100⟩ ?_
  refine contextWithReceipt_panicked_iff.2 ⟨⟨by decide, by decide, by decide, by decide⟩, _, _, files, found, ?_⟩
  have source : sourceLines (fileDigests [("f.py", Sha256.digest carriageSource)]) carriageTree "f.py" = some 1 := by
    unfold sourceLines
    rw [same, Dict.get?_set_self]
    show (if Sha256.digest carriageSource = Sha256.digest carriageSource then
      (PyStr.decodeChars carriageSource).map fun text => (lines text).length else none) = some 1
    rw [if_pos rfl]
    decide +kernel
  have sound : Sound (fileDigests [("f.py", Sha256.digest carriageSource)]) carriageTree {} :=
    fun file actual text found => by cases found
  have behind : 1 < boundedEnd ⟨1, 10, 100, 100⟩ carriageSymbol := by
    simp only [boundedEnd, saturatingAdd, carriageSymbol]
    omega
  have panics : contextTurn (fileDigests [("f.py", Sha256.digest carriageSource)]) carriageTree ⟨1, 10, 100, 100⟩ {}
      carriageSymbol = .error .panicked := (contextTurn_panicked_iff sound).2 ⟨1, source, le_rfl, behind⟩
  rw [Turn.scan, panics]

end Context

end RustCore

end SimplicioFast
