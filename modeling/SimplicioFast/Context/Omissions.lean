import SimplicioFast.Context.Spans

/-!
# What a context omits

A span that does not deliver all lines of its symbol says so: each line of the symbol that does not stand whole in its
content is in a range that it reports as omitted, and its fidelity is `complete` exactly when it reports none (`Accounted`).
Symbols that are found when the results, the bytes or the tokens are used up get neither a span nor an omitted range.
-/

namespace SimplicioFast

open PyStr (utf8)

namespace Context

variable {tree : SourceTree} {limits : ContextLimits} {symbol : Symbol} {span : ContextSpan} {content text : List Char}
  {contents : Bytes} {offset : Bytes → List Char → ℤ → ℕ} {cut : Bool} {i : ℤ}

/-- A source line stands whole in the content of a span, at its place. -/
def Contains (span : ContextSpan) (text : List Char) (i : ℤ) : Prop :=
  ∃ (k : ℕ) (l : List Char), i = span.requestedStartLine + k ∧ (lines text)[(i - 1).toNat]? = some l ∧
    (span.content.splitOn '\n')[k]? = some l

/-- A line is in a range that a span reports as omitted. -/
def Omits (span : ContextSpan) (i : ℤ) : Prop := ∃ r ∈ span.omittedRanges, r.1 ≤ i ∧ i ≤ r.2

/-- The line is one of those that were asked for, and the source has it. -/
def Requested (span : ContextSpan) (text : List Char) (i : ℤ) : Prop :=
  span.requestedStartLine ≤ i ∧ i ≤ span.requestedEndLine ∧ i ≤ (lines text).length

/-- The span accounts for the lines that were asked for. -/
structure Accounts (span : ContextSpan) (text : List Char) : Prop where
  covered : ∀ i, Requested span text i → Contains span text i ∨ Omits span i
  fidelity : span.fidelity = "complete" ↔ span.omittedRanges = []
  whole : span.requestedEndLine ≤ (lines text).length →
    (span.fidelity = "complete" ↔ ∀ i, Requested span text i → Contains span text i)

/-! ## The first omitted line -/

namespace ContextLoop

open SnapshotMethods (Seen)

variable {st st' : ContextState} {t : Turn ContextState} {found : List Symbol} {key : PyStr × ℤ × ℤ}
  {Found : Symbol → Prop} (L : ContextLoop tree)

end ContextLoop

/-- Nothing is used up by the spans of a request. -/
structure Unspent (limits : ContextLimits) (spans : List ContextSpan) : Prop where
  results : spans.length < limits.maxResults
  bytes : (spans.map fun span => (utf8 span.content).length).sum < limits.maxBytes
  tokens : ∀ m ∈ limits.maxTokens, (spans.map ContextSpan.tokens).sum < m

/-- A symbol that one of the queries finds. -/
def Selected (find : PyStr → Except SnapshotRaised (List Symbol)) (queries : List PyStr) (symbol : Symbol) : Prop :=
  ∃ query ∈ queries, ∃ found, find query = .ok found ∧ symbol ∈ found

def SourceOf (tree : SourceTree) (file : PyStr) (text : List Char) : Prop :=
  ∃ contents, tree file = .contents contents ∧ PyStr.decodeChars contents = some text

/-- The spans of a request account for the lines of their symbols, and for those of all symbols that the queries find unless
something is used up; of the symbols with one excerpt it is the shortest that may stand for all. -/
structure Accounted (tree : SourceTree) (find : PyStr → Except SnapshotRaised (List Symbol)) (queries : List PyStr)
    (limits : ContextLimits) (spans : List ContextSpan) : Prop where
  delivered : ∀ span ∈ spans, 1 ≤ span.requestedStartLine → ∃ text, SourceOf tree span.file text ∧ Accounts span text
  selected : Unspent limits spans → ∀ symbol, Selected find queries symbol → 1 ≤ symbol.line →
    (∀ p, Selected find queries p → p.file = symbol.file → p.line = symbol.line →
      boundedEnd limits p = boundedEnd limits symbol → symbol.endLine ≤ p.endLine) →
    ∃ span ∈ spans, span.file = symbol.file ∧ ∃ text, SourceOf tree symbol.file text ∧
      ∀ i : ℤ, symbol.line ≤ i → i ≤ symbol.endLine → i ≤ (lines text).length → Contains span text i ∨ Omits span i

end Context

open Context

end SimplicioFast
