import SimplicioFast.Lib.Loops
import SimplicioFast.Lib.Utf8
import SimplicioFast.Rust.Query

/-!
# The context of the Rust reader

`context_with_receipt` delivers the source lines of the symbols that a query finds, within limits.

The lengths of strings in memory do not overflow.  A slice out of bounds panics.
-/

namespace SimplicioFast

namespace RustCore

open PyStr (utf8 utf8Width fit)

structure RustContextSpan where
  symbol : PyStr
  kind : PyStr
  file : PyStr
  startLine : ℕ
  endLine : ℕ
  sourceSha256 : PyStr
  content : List Char
  symbolId : PyStr
  tokens : ℕ
deriving DecidableEq

/-- `ContextReceipt`. -/
structure SpanReceipt where
  spans : List RustContextSpan
  sourceFilesRead : ℕ
  sourceCacheHits : ℕ
  sourceBytesRead : ℕ

/-- How `context_with_receipt` fails. -/
inductive ContextFailure
  | error (e : SnapshotError)
  | panicked
deriving DecidableEq

/-- What is at a path below the root: nothing, a path that leaves the root, a file that cannot be read, or a file. -/
inductive RustAccess
  | missing
  | escapes
  | unreadable (error : PyStr)
  | contents (b : Bytes)

/-- The limits of a request. -/
structure RustLimits where
  maxResults : ℕ
  maxLines : ℕ
  maxBytes : ℕ
  maxTokens : ℕ

/-- The local variables of the loop. -/
structure RustState where
  spans : List RustContextSpan := []
  cache : Dict PyStr (Bytes × List Char) := .empty
  filesRead : ℕ := 0
  cacheHits : ℕ := 0
  bytesRead : ℕ := 0
  consumedBytes : ℕ := 0
  consumedTokens : ℕ := 0

/-! ## Strings -/

/-- The scan of `str::lines`; `line` is the current line, last character first. -/
def linesFrom (line : List Char) : List Char → List (List Char)
  | [] => if line = [] then [] else [line.reverse]
  | c :: s =>
    if c = '\n' then (if line.head? = some '\r' then line.tail else line).reverse :: linesFrom [] s
    else linesFrom (c :: line) s

/-- `str::lines`. -/
def lines (text : List Char) : List (List Char) := linesFrom [] text

example : lines "a\r\nb\n\nc\r".toList = ["a".toList, "b".toList, [], "c\r".toList] := by decide +kernel

/-- `lines[start..stop].join("\n")`, for a slice in bounds. -/
def joined (lines : List (List Char)) (start stop : ℕ) : List Char :=
  List.intercalate ['\n'] ((lines.take stop).drop start)

/-- `char_indices`, when the text starts at an offset. -/
def charIndices (offset : ℕ) : List Char → List (ℕ × Char)
  | [] => []
  | c :: l => (offset, c) :: charIndices (offset + utf8Width c) l

/-- `value[..stop]`; `none` stands for the panic. -/
def strPrefix (value : List Char) (stop : ℕ) : Option (List Char) :=
  if stop ≤ (utf8 value).length then PyStr.decodeChars ((utf8 value).take stop) else none

/-- The ends of the characters of a text that starts at an offset, as far as they are within a bound. -/
def charEnds (maxBytes offset : ℕ) (value : List Char) : List ℕ :=
  (((charIndices offset value).takeWhile fun e => e.1 ≤ maxBytes).map fun e => e.1 + utf8Width e.2).takeWhile
    (· ≤ maxBytes)

/-- `truncate_utf8`; `none` stands for the panic. -/
def truncateUtf8 (value : List Char) (maxBytes : ℕ) : Option (List Char) :=
  strPrefix value ((charEnds maxBytes 0 value).getLast?.getD 0)

/-! ## The loop -/

def tokensOf (size : ℕ) : ℕ := max 1 ((size + 3) / 4)

/-- `u32::saturating_add` -/
def saturatingAdd (a b : ℕ) : ℕ := min (a + b) (2 ^ 32 - 1)

/-- A `SnapshotError::Invalid`. -/
def invalid {α : Type} (reason : PyStr) : Except ContextFailure α := .error (.error (.invalid reason))

/-- The source of a file, from the cache or from the disk, and the state with it in the cache. -/
def readSource (tree : PyStr → RustAccess) (digest : Bytes) (file : PyStr) (st : RustState) :
    Except ContextFailure (Bytes × List Char × RustState) :=
  match st.cache.get? file with
  | some (actual, text) => .ok (actual, text, { st with cacheHits := st.cacheHits + 1 })
  | none => match tree file with
    | .missing => invalid (("source missing: " : PyStr) ++ file)
    | .escapes => invalid "snapshot path escapes root"
    | .unreadable error => .error (.error (.io error))
    | .contents bytes =>
      let actual := Sha256.digest bytes
      if actual ≠ digest then invalid (("stale source: " : PyStr) ++ file)
      else match PyStr.decodeChars bytes with
        | none => invalid "source is not UTF-8"
        | some text => .ok (actual, text, { st with
            cache := st.cache.set file (actual, text)
            filesRead := st.filesRead + 1
            bytesRead := st.bytesRead + bytes.length })

/-- The cut to the bytes that are left; `none` stands for `break`. -/
def cutBytes (maxBytes consumed : ℕ) (content : List Char) : Except ContextFailure (Option (List Char)) :=
  if maxBytes < consumed + (utf8 content).length then
    let remaining := maxBytes - consumed
    if remaining = 0 then .ok none
    else match truncateUtf8 content remaining with
      | none => .error .panicked
      | some content => .ok (some content)
  else .ok (some content)

/-- The cut to the tokens that are left, with the tokens; `none` stands for `break`. -/
def cutTokens (maxTokens consumed : ℕ) (content : List Char) : Except ContextFailure (Option (List Char × ℕ)) :=
  let tokens := tokensOf (utf8 content).length
  if maxTokens < consumed + tokens then
    let remaining := maxTokens - consumed
    if remaining = 0 then .ok none
    else match truncateUtf8 content (remaining * 4) with
      | none => .error .panicked
      | some content => .ok (some (content, tokensOf (utf8 content).length))
  else .ok (some (content, tokens))

/-- The state with the span of a symbol. -/
def deliver (symbol : RustSymbol) (digest : Bytes) (stop : ℕ) (content : List Char) (tokens : ℕ) (st : RustState) :
    RustState :=
  { st with
    spans := st.spans ++ [{
      symbol := symbol.qualifiedName
      kind := symbol.kind
      file := symbol.file
      startLine := symbol.line
      endLine := stop
      sourceSha256 := PyStr.ofChars (Bytes.hex digest)
      content
      symbolId := symbol.symbolId
      tokens }]
    consumedBytes := st.consumedBytes + (utf8 content).length
    consumedTokens := st.consumedTokens + tokens }

/-- The last line that is delivered at most. -/
def boundedEnd (limits : RustLimits) (symbol : RustSymbol) : ℕ :=
  min symbol.endLine (saturatingAdd symbol.line limits.maxLines - 1)

/-- The body of the loop of `context_with_receipt`. -/
def contextTurn (files : Dict PyStr Bytes) (tree : PyStr → RustAccess) (limits : RustLimits) (st : RustState)
    (symbol : RustSymbol) : Except ContextFailure (Turn RustState) :=
  match files.get? symbol.file with
  | none => invalid "symbol references unknown file"
  | some digest => do
    let (actual, text, st) ← readSource tree digest symbol.file st
    let start := max symbol.line 1
    let stop := boundedEnd limits symbol
    if (lines text).length < start ∨ stop < start then invalid "symbol line bounds out of range"
    else if (lines text).length < stop then .error .panicked
    else
      match ← cutBytes limits.maxBytes st.consumedBytes (joined (lines text) (start - 1) stop) with
      | none => return .returned st
      | some content => match ← cutTokens limits.maxTokens st.consumedTokens content with
        | none => return .returned st
        | some (content, tokens) => return .next (deliver symbol actual stop content tokens st)

/-- `files`. -/
def fileDigests (files : List (PyStr × Bytes)) : Dict PyStr Bytes := files.foldl (fun d f => d.set f.1 f.2) .empty

/-- `context_with_receipt`; the root is the source tree, when it can be canonicalized. -/
def contextWithReceipt (toLowercase : PyStr → PyStr) (r : SnapshotReader) (root : Option (PyStr → RustAccess))
    (term : PyStr) (limits : RustLimits) : Except ContextFailure SpanReceipt :=
  if limits.maxResults = 0 ∨ limits.maxLines = 0 ∨ limits.maxBytes = 0 ∨ limits.maxTokens = 0 then
    invalid "context limits must be positive"
  else match root with
    | none => invalid "repository root is unavailable"
    | some tree => do
      let found ← r.fileInfo.mapError .error
      let symbols ← (r.query toLowercase term limits.maxResults).mapError .error
      let t ← Turn.scan (contextTurn (fileDigests found) tree limits) symbols {}
      return ⟨t.state.spans, t.state.filesRead, t.state.cacheHits, t.state.bytesRead⟩

/-! ## Truncation -/

variable {m n offset : ℕ} {l : List Char}

theorem getLast?_charEnds (le : offset ≤ m) (l : List Char) :
    (charEnds m offset l).getLast?.getD offset = offset + (utf8 (fit (m - offset) l)).length := by
  induction l generalizing offset with
  | nil => rfl
  | cons c l ih =>
    have ends : charEnds m offset (c :: l) = if offset + utf8Width c ≤ m then
        (offset + utf8Width c) :: charEnds m (offset + utf8Width c) l else [] := by
      unfold charEnds
      rw [charIndices, List.takeWhile_cons_of_pos (by simpa using le), List.map_cons]
      split_ifs with fits
      · rw [List.takeWhile_cons_of_pos (by simpa using fits)]
      · rw [List.takeWhile_cons_of_neg (by simpa using fits)]
    rw [ends, fit]
    by_cases fits : offset + utf8Width c ≤ m
    · rw [if_pos fits, if_pos (by omega), PyStr.utf8_cons, List.length_append, List.getLast?_cons, Option.getD_some,
        ih fits, Nat.add_assoc, Nat.sub_add_eq]
      rfl
    · rw [if_neg fits, if_neg (by omega)]
      rfl

/-- `truncate_utf8` never panics, and gives the longest prefix that fits. -/
theorem truncateUtf8_eq (l : List Char) (n : ℕ) : truncateUtf8 l n = some (fit n l) := by
  obtain ⟨rest, split⟩ := PyStr.fit_prefix n l
  have stop := getLast?_charEnds (Nat.zero_le n) l
  rw [Nat.zero_add, Nat.sub_zero] at stop
  have bytes : utf8 l = utf8 (fit n l) ++ utf8 rest := by rw [← PyStr.utf8_append, split]
  have front : (utf8 l).take (utf8 (fit n l)).length = utf8 (fit n l) := by rw [bytes, List.take_left]
  have le : (utf8 (fit n l)).length ≤ (utf8 l).length := by
    rw [bytes, List.length_append]
    exact Nat.le_add_right _ _
  rw [truncateUtf8, stop, strPrefix, if_pos le, front, PyStr.decodeChars_utf8]

end RustCore

end SimplicioFast
