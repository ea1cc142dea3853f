import SimplicioFast.Lib.Lines
import SimplicioFast.Lib.Loops
import SimplicioFast.Lib.Utf8
import SimplicioFast.Snapshot.Format

/-!
# Source context

`Snapshot.context_many` and `EffectiveSnapshot.context_many` deliver the source lines of symbols, within limits on the
number of spans, on the lines of each one, and on the bytes and the tokens of all of them.  This module holds what the
two loops have in common.

A source text was decoded from UTF-8, so it holds no lone surrogates.  Each file is read at most once in a call, so what
the files hold is a function of their paths.
-/

namespace SimplicioFast

instance lawfulBEqRange : LawfulBEq (PyStr × ℤ × ℤ) := inferInstance

/-- The exceptions of `context_many`. -/
inductive ContextRaised
  | snapshot (x : SnapshotRaised)
  | staleSnapshot (message : PyStr)
  | osError
deriving DecidableEq

structure ContextSpan where
  symbol : PyStr
  kind : PyStr
  file : PyStr
  startLine : ℤ
  endLine : ℤ
  sourceSha256 : PyStr
  content : List Char
  symbolId : PyStr := []
  tokens : ℕ := 0
  baseGeneration : Option PyStr := none
  overlayGeneration : Option PyStr := none
  requestedStartLine : ℤ
  requestedEndLine : ℤ
  startByte : ℕ
  endByte : ℕ
  contentSha256 : PyStr
  fidelity : PyStr
  omittedRanges : List (ℤ × ℤ)
  needsBroaderContext : Bool
deriving DecidableEq

/-- The limits of a request; a limit below zero is refused as zero is. -/
structure ContextLimits where
  maxResults : ℕ
  maxLines : ℕ
  maxBytes : ℕ
  maxTokens : Option ℕ

/-- What is at a path below the root: a path that leaves the root, one that cannot be read, or a file. -/
inductive SourceAccess
  | escapes
  | unreadable
  | contents (b : Bytes)

/-- The source files, by the path relative to the root. -/
abbrev SourceTree := PyStr → SourceAccess

/-- The local variables of the loops. -/
structure ContextState where
  spans : List ContextSpan
  consumed : ℕ
  consumedTokens : ℕ
  seen : List (PyStr × ℤ × ℤ)

namespace Context

open PyStr (utf8 decodeIgnore)

/-! ## Lines -/

/-- `l[i:j]`. -/
def slice {α : Type} (l : List α) (i j : ℤ) : List α :=
  let position (k : ℤ) : ℕ := if k < 0 then (k + l.length).toNat else k.toNat
  (l.take (position j)).drop (position i)

/-- The scan of `str.splitlines()`; `line` is the current line, last character first. -/
def linesFrom (line : List Char) : List Char → List (List Char)
  | [] => if line = [] then [] else [line.reverse]
  | '\r' :: '\n' :: s => line.reverse :: linesFrom [] s
  | c :: s => if PyStr.isLineBreak (.scalar c) then line.reverse :: linesFrom [] s else linesFrom (c :: line) s

/-- `str.splitlines()`. -/
def lines (text : List Char) : List (List Char) := linesFrom [] text

example : lines "a\r\nb\u2028\nc\n".toList = ["a".toList, "b".toList, [], "c".toList] := by decide +kernel

/-- `"\n".join(lines)`. -/
def joinLines (lines : List (List Char)) : List Char := List.intercalate ['\n'] lines

/-- The source lines from `start` to `stop`. -/
def snippet (text : List Char) (start stop : ℤ) : List Char := joinLines (slice (lines text) (start - 1) stop)

/-! ## Sources -/

/-- `ValueError`. -/
def invalid {α : Type} (message : PyStr) : Except ContextRaised α := .error (.snapshot (.valueError message))

/-- The file of a symbol: its bytes and its text. -/
def readSource (tree : SourceTree) (file : PyStr) : Except ContextRaised (Bytes × List Char) :=
  match tree file with
  | .escapes => invalid (("snapshot path escapes root: " : PyStr) ++ file)
  | .unreadable => .error .osError
  | .contents b => match PyStr.decodeChars b with
    | none => invalid (("source is not valid UTF-8: " : PyStr) ++ file)
    | some text => .ok (b, text)

def checkLimits (limits : ContextLimits) : Except ContextRaised Unit :=
  if limits.maxResults < 1 ∨ limits.maxLines < 1 ∨ limits.maxBytes < 1 ∨ (∃ m ∈ limits.maxTokens, m < 1) then
    invalid "context limits must be positive"
  else .ok ()

/-- The last line that is delivered at most. -/
def boundedEnd (limits : ContextLimits) (symbol : Symbol) : ℤ :=
  min (symbol.endLine : ℤ) ((symbol.line : ℤ) + limits.maxLines - 1)

/-! ## Cutting -/

/-- The estimated number of tokens of a content with `size` bytes. -/
def tokensOf (size : ℕ) : ℕ := if size = 0 then 0 else max 1 ((size + 3) / 4)

/-- The cut to the tokens that are left: the content, its tokens, and whether it was cut; `none` stands for
`return spans`. -/
def cutTokens (maxTokens : Option ℕ) (consumedTokens : ℕ) (content : List Char) : Option (List Char × ℕ × Bool) :=
  let tokens := tokensOf (utf8 content).length
  match maxTokens with
  | none => some (content, tokens, false)
  | some m =>
    if m < consumedTokens + tokens then
      let remaining := m - consumedTokens
      if remaining = 0 then none
      else
        let content := decodeIgnore ((utf8 content).take (remaining * 4))
        some (content, tokensOf (utf8 content).length, true)
    else some (content, tokens, false)

def deliveredEnd (start stop : ℤ) (content : List Char) (contentTruncated : Bool) : ℤ :=
  if contentTruncated ∧ content ≠ [] ∧ content.getLast? ≠ some '\n' then start + content.count '\n'
  else if contentTruncated ∧ content ≠ [] then start + content.count '\n' - 1
  else stop

def omittedStart (start deliveredEnd : ℤ) (content : List Char) (contentTruncated : Bool) : ℤ :=
  if contentTruncated ∧ content ≠ [] ∧ content.getLast? ≠ some '\n' then deliveredEnd
  else if contentTruncated ∧ content = [] then start
  else deliveredEnd + 1

def omittedRanges (truncated : Bool) (omittedStart requestedEnd : ℤ) : List (ℤ × ℤ) :=
  if truncated ∧ omittedStart ≤ requestedEnd then [(omittedStart, requestedEnd)] else []

/-- The SHA-256 digest of bytes in hexadecimal. -/
def hexdigest (b : Bytes) : PyStr := PyStr.ofChars (Sha256.hexdigest b)

end Context

end SimplicioFast
