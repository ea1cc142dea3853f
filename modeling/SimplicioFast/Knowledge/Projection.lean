import Mathlib.Data.Finset.Sort
import SimplicioFast.Lib.JsonWide
import SimplicioFast.Lib.Machine

/-!
# The projection of knowledge facts

`KnowledgeProjection` retains one fact for each handle and marks the handles of which facts with another digest or
version were applied.  A query leaves the marked handles out.  A fact that repeats the retained digest and version with
another state takes the place of the retained one and clears the mark.

`str.casefold` is a parameter.
-/

namespace SimplicioFast

namespace Knowledge

def FACT_SCHEMA : PyStr := "simplicio.fast.knowledge-fact/v1"

def HANDOFF_SCHEMA : PyStr := "simplicio.fast.knowledge-handoff/v1"

def AUTHORIZED_PRODUCERS : List PyStr := ["mapper", "runtime"]

def TRUST_RANK : List (PyStr × ℤ) :=
  [("untrusted", 0), ("derived_fact", 1), ("advisory", 2), ("verified", 3), ("authoritative", 4)]

def maxFacts : ℕ := 100000

def maxQueryResults : ℤ := 10000

def maxQueryBytes : ℤ := 8 * 1024 * 1024

def maxQueryTokens : ℤ := 1000000

/-- What the operations raise: `KnowledgeProjectionError` with its reason, or the `TypeError` of a value that is not
hashable. -/
inductive Raised
  | reason (code : PyStr)
  | typeError
  deriving DecidableEq

/-- The states of a fact: `_ACTIVE` and the members of `_INACTIVE`. -/
inductive FactState
  | active | revoked | expired | conflicted | tombstoned
  deriving DecidableEq

def FactState.ofName? (name : PyStr) : Option FactState :=
  Dict.find [(("active" : PyStr), active), ("revoked", revoked), ("expired", expired), ("conflicted", conflicted),
    ("tombstoned", tombstoned)] name

structure KnowledgeFact where
  sourceType : PyStr
  producer : PyStr
  stableHandle : PyStr
  version : PyStr
  provenance : List PyStr
  trust : PyStr
  digest : PyStr
  text : PyStr
  repository : PyStr
  scope : PyStr
  validFrom : Option ℤ
  validUntil : Option ℤ
  state : FactState
  applicability : List PyStr
  /-- `fact_identity_invalid` otherwise. -/
  identity : ∀ s ∈ [sourceType, producer, stableHandle, version, trust, digest, repository, scope], s.strip ≠ []
  /-- `fact_provenance_invalid` otherwise. -/
  sourced : provenance ≠ [] ∧ ∀ s ∈ provenance, s.strip ≠ []
  /-- `fact_applicability_invalid` otherwise. -/
  applicable : ∀ s ∈ applicability, s.strip ≠ []
  /-- `fact_temporal_bounds_invalid` otherwise. -/
  bounded : ∀ first ∈ validFrom, ∀ last ∈ validUntil, first ≤ last

namespace KnowledgeFact

/-- The digest and the version of the fact. -/
def content (fact : KnowledgeFact) : PyStr × PyStr := (fact.digest, fact.version)

/-- The parameters of `KnowledgeFact`. -/
def FIELDS : List PyStr :=
  ["source_type", "producer", "stable_handle", "version", "provenance", "trust", "digest", "text", "repository",
    "scope", "valid_from", "valid_until", "state", "applicability"]

def str? : Option Json → Option PyStr
  | some (.str s) => some s
  | _ => none

def stringSequence? : Json → Option (List PyStr)
  | .arr vs => vs.mapM fun v => (str? (some v)).filter fun s => s.strip ≠ []
  | _ => none

/-- A temporal bound, which may be `None`. -/
def bound? : Option Json → Option (Option ℤ)
  | none => some none
  | some .null => some none
  | some (.int n) => some (some n)
  | _ => none

/-- `KnowledgeFact(**payload)`; `none` where it raises. -/
def ofPayload? (payload : List (PyStr × Json)) : Option KnowledgeFact := do
  guard (payload.all fun field => field.1 ∈ FIELDS)
  let sourceType ← str? (Dict.find payload "source_type")
  let producer ← str? (Dict.find payload "producer")
  let stableHandle ← str? (Dict.find payload "stable_handle")
  let version ← str? (Dict.find payload "version")
  let provenance ← (Dict.find payload "provenance").bind stringSequence?
  let trust ← str? (Dict.find payload "trust")
  let digest ← str? (Dict.find payload "digest")
  let text ← str? (Dict.find payload "text")
  let repository ← str? (Dict.find payload "repository")
  let scope ← str? (Dict.find payload "scope")
  let validFrom ← bound? (Dict.find payload "valid_from")
  let validUntil ← bound? (Dict.find payload "valid_until")
  let state ← match Dict.find payload "state" with
    | none => some .active
    | some v => (str? (some v)).bind FactState.ofName?
  let applicability ← stringSequence? ((Dict.find payload "applicability").getD (.arr []))
  if identity : ∀ s ∈ [sourceType, producer, stableHandle, version, trust, digest, repository, scope],
      s.strip ≠ [] then
    if sourced : provenance ≠ [] ∧ ∀ s ∈ provenance, s.strip ≠ [] then
      if applicable : ∀ s ∈ applicability, s.strip ≠ [] then
        if bounded : ∀ first ∈ validFrom, ∀ last ∈ validUntil, first ≤ last then
          some ⟨sourceType, producer, stableHandle, version, provenance, trust, digest, text, repository, scope,
            validFrom, validUntil, state, applicability, identity, sourced, applicable, bounded⟩
        else none
      else none
    else none
  else none

end KnowledgeFact

end Knowledge

open Knowledge Machine

structure KnowledgeProjection where
  repository : PyStr
  scope : PyStr
  generation : PyStr
  facts : Dict PyStr KnowledgeFact := .empty
  conflicts : Finset PyStr := ∅
  tombstones : Finset PyStr := ∅
  /-- `projection_scope_invalid` otherwise. -/
  identity : ∀ s ∈ [repository, scope, generation], s.strip ≠ []

namespace KnowledgeProjection

variable (p : KnowledgeProjection)

/-! ## Deltas -/

def applyFact (fact : KnowledgeFact) : KnowledgeProjection :=
  match p.facts.get? fact.stableHandle with
  | some previous =>
    if previous.digest = fact.digest ∧ previous.version = fact.version then
      if previous.state ≠ fact.state then
        { p with
          facts := p.facts.set fact.stableHandle fact
          conflicts := p.conflicts.erase fact.stableHandle }
      else { p with tombstones := p.tombstones.erase fact.stableHandle }
    else { p with conflicts := insert fact.stableHandle p.conflicts }
  | none =>
    { p with
      facts := p.facts.set fact.stableHandle fact
      tombstones := p.tombstones.erase fact.stableHandle }

/-- The fact makes its handle a changed one. -/
def isChange (fact : KnowledgeFact) : Bool :=
  match p.facts.get? fact.stableHandle with
  | some previous =>
    !(previous.digest = fact.digest && previous.version = fact.version && previous.state = fact.state)
  | none => true

/-- The facts of a delta, with the changed handles. -/
def applyFacts (p : KnowledgeProjection) : List KnowledgeFact → KnowledgeProjection × List PyStr
  | [] => (p, [])
  | fact :: facts =>
    let (q, changed) := applyFacts (p.applyFact fact) facts
    (q, if p.isChange fact then fact.stableHandle :: changed else changed)

def bury (handle : PyStr) : KnowledgeProjection :=
  { p with
    facts := p.facts.erase handle
    conflicts := p.conflicts.erase handle
    tombstones := insert handle p.tombstones }

def prospective (facts : List KnowledgeFact) (deleted : List PyStr) : Finset PyStr :=
  (p.facts.keys ++ facts.map KnowledgeFact.stableHandle).toFinset \ deleted.toFinset

/-- The checks of `apply_delta`, with the facts and the sorted tombstones of a delta that passes.  An argument may not
be iterable, and an item of the facts may be no fact. -/
def checkDelta (facts : Option (List (Option KnowledgeFact))) (tombstones : Option (List Json)) :
    Except Raised (List KnowledgeFact × List PyStr) :=
  match facts, tombstones with
  | some facts, some tombstones =>
    match KnowledgeFact.stringSequence? (.arr tombstones) with
    | none => .error (.reason "tombstone_invalid")
    | some deleted =>
      let incoming := facts.reduceOption
      if facts.any Option.isNone then .error (.reason "fact_type_invalid")
      else if incoming.any fun fact => fact.repository ≠ p.repository || fact.scope ≠ p.scope then
        .error (.reason "fact_scope_mismatch")
      else if maxFacts < (p.prospective incoming deleted).card then .error (.reason "fact_count_limit")
      else .ok (incoming, deleted.insertionSort (· ≤ ·))
  | _, _ => .error (.reason "delta_input_invalid")

/-- A delta that has passed the checks. -/
def commitDelta (facts : List KnowledgeFact) (deleted : List PyStr) : KnowledgeProjection :=
  deleted.foldl bury (p.applyFacts facts).1

def applyDelta (facts : Option (List (Option KnowledgeFact))) (tombstones : Option (List Json)) :
    KnowledgeProjection × Except Raised (List (PyStr × Json)) :=
  match p.checkDelta facts tombstones with
  | .error raised => (p, .error raised)
  | .ok (incoming, deleted) =>
    let q := p.commitDelta incoming deleted
    (q, .ok [("schema", .str "simplicio.fast.knowledge-delta/v1"), ("generation", .str p.generation),
      ("changed_handles", .arr ((PyStr.sortedSet (p.applyFacts incoming).2).map .str)),
      ("tombstones", .arr (deleted.map .str)), ("conflicts", .arr ((q.conflicts.sort (· ≤ ·)).map .str))])

/-- `handoff.get(key) == expected`. -/
def names (handoff : List (PyStr × Json)) (key expected : PyStr) : Bool :=
  ((Dict.find handoff key).getD .null).pyEq (.str expected)

/-- One item of `facts` in a handoff. -/
def readFact (producer : PyStr) (item : List (PyStr × Json)) : Except Raised KnowledgeFact :=
  if names item "producer" producer = false then .error (.reason "handoff_producer_mismatch")
  else if (((Dict.find item "schema").getD (.str FACT_SCHEMA)).pyEq (.str FACT_SCHEMA)) = false then
    .error (.reason "handoff_fact_invalid")
  else match KnowledgeFact.ofPayload? (item.filter fun field => field.1 ≠ ("schema" : PyStr)) with
    | none => .error (.reason "handoff_fact_invalid")
    | some fact => .ok fact

/-- What a handoff hands over. -/
structure Handoff where
  producer : PyStr
  producerSchema : PyStr
  facts : List KnowledgeFact
  tombstones : List Json

def fields? : Json → Option (List (PyStr × Json))
  | .obj fields => some fields
  | _ => none

/-- `producer in AUTHORIZED_PRODUCERS`, which raises `TypeError` for a value that is not hashable. -/
def readProducer : Option Json → Except Raised PyStr
  | some (.arr _) => .error .typeError
  | some (.obj _) => .error .typeError
  | some (.str producer) =>
    if producer ∈ AUTHORIZED_PRODUCERS then .ok producer else .error (.reason "handoff_producer_untrusted")
  | _ => .error (.reason "handoff_producer_untrusted")

/-- The checks of `apply_handoff`. -/
def readHandoff (handoff : Json) : Except Raised Handoff :=
  match fields? handoff with
  | none => .error (.reason "handoff_schema_invalid")
  | some fields => do
    unless names fields "schema" HANDOFF_SCHEMA do throw (.reason "handoff_schema_invalid")
    let producer ← readProducer (Dict.find fields "producer")
    let producerSchema ← match Dict.find fields "producer_schema" with
      | some (.str schema) =>
        if schema.strip = [] then .error (.reason "handoff_producer_schema_invalid") else .ok schema
      | _ => .error (.reason "handoff_producer_schema_invalid")
    unless names fields "repository" p.repository && names fields "scope" p.scope &&
        names fields "generation" p.generation do
      throw (.reason "handoff_scope_mismatch")
    match Dict.find fields "facts", (Dict.find fields "tombstones").getD (.arr []) with
    | some (.arr rawFacts), .arr rawTombstones =>
      match rawFacts.mapM fields? with
      | none => .error (.reason "handoff_fact_invalid")
      | some items =>
        if KnowledgeFact.stringSequence? (.arr rawTombstones) = none then
          .error (.reason "handoff_tombstone_invalid")
        else do
          let facts ← items.mapM (readFact producer)
          pure { producer, producerSchema, facts, tombstones := rawTombstones }
    | _, _ => .error (.reason "handoff_payload_invalid")

def applyHandoff (handoff : Json) : KnowledgeProjection × Except Raised (List (PyStr × Json)) :=
  match p.readHandoff handoff with
  | .error raised => (p, .error raised)
  | .ok h =>
    let (q, outcome) := p.applyDelta (some (h.facts.map some)) (some h.tombstones)
    let sender : List (PyStr × Json) :=
      [("producer", .str h.producer), ("producer_schema", .str h.producerSchema),
        ("handoff_schema", .str HANDOFF_SCHEMA)]
    (q, outcome.map fun delta => delta ++ sender)

/-! ## Queries -/

def isTokenHead (c : PyChar) : Bool :=
  (97 ≤ c.code && c.code ≤ 122) || (48 ≤ c.code && c.code ≤ 57)

def isTokenTail (c : PyChar) : Bool := isTokenHead c || c.code = 95 || c.code = 45

/-- `_TOKEN.findall`, inside the token whose characters so far are given in reverse. -/
def findTokens : Option PyStr → PyStr → List PyStr
  | none, [] => []
  | some token, [] => [token.reverse]
  | none, c :: s => if isTokenHead c then findTokens (some [c]) s else findTokens none s
  | some token, c :: s =>
    if isTokenTail c then findTokens (some (c :: token)) s else token.reverse :: findTokens none s

/-- The arguments of `query`. -/
structure Query where
  task : Json
  maxResults : Json := .int 32
  maxBytes : Json := .int (256 * 1024)
  maxTokens : Json := .int 4096
  sourceTypes : Json := .arr []
  asOf : Json := .null
  trustFloor : Json := .null

/-- The arguments of a query that has passed the checks. -/
structure Budget where
  task : PyStr
  maxResults : ℕ
  maxBytes : ℕ
  maxTokens : ℕ
  sourceTypes : List PyStr
  asOf : Option ℤ
  trustFloor : Option PyStr

/-- A limit of a query: a positive integer up to the bound. -/
def limit? (bound : ℤ) : Json → Option ℕ
  | .int n => if 0 < n ∧ n ≤ bound then some n.toNat else none
  | _ => none

/-- `as_of`, which may be `None` and is not negative. -/
def asOf? : Json → Option (Option ℤ)
  | .null => some none
  | .int n => if n < 0 then none else some (some n)
  | _ => none

/-- `trust_floor`, which may be `None`; a value that is not hashable raises `TypeError`. -/
def readTrustFloor : Json → Except Raised (Option PyStr)
  | .null => .ok none
  | .arr _ => .error .typeError
  | .obj _ => .error .typeError
  | .str floor =>
    if (Dict.find TRUST_RANK floor).isSome then .ok (some floor) else .error (.reason "query_trust_invalid")
  | _ => .error (.reason "query_trust_invalid")

/-- The checks of `query`. -/
def readQuery (q : Query) : Except Raised Budget :=
  match q.task with
  | .str task => do
    let sourceTypes ← match q.sourceTypes.truthy, KnowledgeFact.stringSequence? q.sourceTypes with
      | false, _ => .ok []
      | true, some types => .ok types
      | true, none => .error (.reason "query_source_types_invalid")
    let trustFloor ← readTrustFloor q.trustFloor
    match limit? maxQueryResults q.maxResults, limit? maxQueryBytes q.maxBytes, limit? maxQueryTokens q.maxTokens,
        asOf? q.asOf with
    | some maxResults, some maxBytes, some maxTokens, some asOf =>
      if task = [] then .error (.reason "query_budget_invalid")
      else .ok { task, maxResults, maxBytes, maxTokens, sourceTypes, asOf, trustFloor := trustFloor }
    | _, _, _, _ => .error (.reason "query_budget_invalid")
  | _ => .error (.reason "query_task_invalid")

/-- `_TRUST_RANK.get(trust, -1)`. -/
def trustRank (trust : PyStr) : ℤ := (Dict.find TRUST_RANK trust).getD (-1)

/-- The fact is not filtered out before its text is looked at. -/
def isCandidate (b : Budget) (fact : KnowledgeFact) : Bool :=
  !(fact.stableHandle ∈ p.conflicts || fact.stableHandle ∈ p.tombstones || fact.state ≠ .active ||
      (b.sourceTypes ≠ [] && fact.sourceType ∉ b.sourceTypes)) &&
    b.trustFloor.all (fun floor => trustRank floor ≤ trustRank fact.trust) &&
    b.asOf.all (fun at_ => fact.validFrom.all (· ≤ at_) && fact.validUntil.all (at_ ≤ ·))

/-- A row of the result: the fact and the terms that match. -/
structure Row where
  fact : KnowledgeFact
  matched : List PyStr

namespace Row

/-- The sort key compared: more terms first, then by handle and version. -/
def le (r s : Row) : Bool :=
  s.matched.length < r.matched.length || r.matched.length = s.matched.length &&
    (r.fact.stableHandle < s.fact.stableHandle || r.fact.stableHandle = s.fact.stableHandle &&
      r.fact.version ≤ s.fact.version)

def item (b : Budget) (r : Row) : Json :=
  let explain : List (PyStr × Json) :=
    [("relevance", .int r.matched.length), ("trust", .str r.fact.trust),
      ("freshness", .str (if b.asOf.isSome then "as_of" else "current")),
      ("applicability", .arr (r.fact.applicability.map .str)), ("matched_terms", .arr (r.matched.map .str)),
      ("ranking", .str "lexical-fallback")]
  .obj [("stable_handle", .str r.fact.stableHandle), ("source_type", .str r.fact.sourceType),
    ("producer", .str r.fact.producer), ("version", .str r.fact.version),
    ("provenance", .arr (r.fact.provenance.map .str)), ("trust", .str r.fact.trust), ("digest", .str r.fact.digest),
    ("repository", .str r.fact.repository), ("scope", .str r.fact.scope), ("explain", .obj explain)]

end Row

/-- The loop that fills the budgets, with the reason why it ends early. -/
def select (b : Budget) : ℕ → ℕ → List Row → List Row × Option PyStr
  | _, _, [] => ([], none)
  | bytesUsed, tokensUsed, row :: rows =>
    let encodedSize := (Json.dumps true (row.item b)).length
    let estimated := (row.item b).writeWide.words
    if b.maxBytes < bytesUsed + encodedSize then ([], some "byte_budget")
    else if b.maxTokens < tokensUsed + estimated then ([], some "token_budget")
    else
      let (selected, reason) := select b (bytesUsed + encodedSize) (tokensUsed + estimated) rows
      (row :: selected, reason)

/-- What `query` returns. -/
structure PrecedentResult where
  trustFloor : Option PyStr
  handles : List PyStr
  results : List Json
  truncated : Bool
  truncationReasons : List PyStr

variable (casefold : PyStr → PyStr)

def tokens (value : PyStr) : List PyStr := findTokens none (casefold value)

/-- The facts that match the task, in the order of their rows. -/
def candidates (b : Budget) : List Row :=
  (((p.facts.values.filter (p.isCandidate b)).map fun fact =>
    { fact, matched := PyStr.sortedSet ((tokens casefold b.task).filter (· ∈ tokens casefold fact.text)) : Row }).filter
      fun row => row.matched ≠ []).insertionSort fun r s => r.le s = true

def query (q : Query) : Except Raised PrecedentResult :=
  (readQuery q).map fun b =>
    let candidates := p.candidates casefold b
    let (selected, reason) := select b 0 0 (candidates.take b.maxResults)
    { trustFloor := b.trustFloor
      handles := selected.map fun row => row.fact.stableHandle
      results := selected.map (Row.item b)
      truncated := reason.isSome || selected.length < candidates.length
      truncationReasons := reason.toList }

/-! ## Runs -/

/-- The operations that change a projection. -/
inductive Operation
  | applyDelta (facts : Option (List (Option KnowledgeFact))) (tombstones : Option (List Json))
  | applyHandoff (handoff : Json)

def perform (op : Operation) : KnowledgeProjection :=
  match op with
  | .applyDelta facts tombstones => (p.applyDelta facts tombstones).1
  | .applyHandoff handoff => (p.applyHandoff handoff).1

/-- The facts and the tombstones that the operation applies, where it does not raise. -/
def admitted? (op : Operation) : Option (List KnowledgeFact × List PyStr) :=
  match op with
  | .applyDelta facts tombstones => (p.checkDelta facts tombstones).toOption
  | .applyHandoff handoff => (p.readHandoff handoff).toOption.bind fun h =>
    (p.checkDelta (some (h.facts.map some)) (some h.tombstones)).toOption

/-- A projection, with the facts that were applied and whose handles were not tombstoned since. -/
structure Remembered where
  projection : KnowledgeProjection
  applied : List KnowledgeFact

namespace Remembered

variable (s : Remembered)

def take (fact : KnowledgeFact) : Remembered where
  projection := s.projection.applyFact fact
  applied := fact :: s.applied

def drop (handle : PyStr) : Remembered where
  projection := s.projection.bury handle
  applied := s.applied.filter fun fact => fact.stableHandle ≠ handle

def step (s : Remembered) (op : Operation) : Remembered :=
  match s.projection.admitted? op with
  | none => s
  | some (facts, deleted) => run drop (run take s facts) deleted

/-- Since the last tombstone of the handle, facts of two digests or versions were applied to it. -/
def Diverged (handle : PyStr) : Prop :=
  ∃ f ∈ s.applied, ∃ g ∈ s.applied, f.stableHandle = handle ∧ g.stableHandle = handle ∧ f.content ≠ g.content

instance (handle : PyStr) : Decidable (s.Diverged handle) := by
  unfold Diverged
  infer_instance

/-- The fact makes a retained fact active again whose handle has diverged. -/
def Reactivates (fact : KnowledgeFact) : Prop :=
  s.Diverged fact.stableHandle ∧ fact.state = .active ∧
    (s.projection.facts.get? fact.stableHandle).any fun kept => kept.content = fact.content ∧ kept.state ≠ .active

instance (fact : KnowledgeFact) : Decidable (s.Reactivates fact) := by
  unfold Reactivates
  infer_instance

/-- No fact of the operation makes a diverged handle active again. -/
def Careful (s : Remembered) (op : Operation) : Prop :=
  ∀ delta ∈ s.projection.admitted? op, Along take (fun t fact => ¬ t.Reactivates fact) s delta.1

instance (op : Operation) : Decidable (s.Careful op) := by
  unfold Careful
  infer_instance

/-- A query returns no diverged handle. -/
def Sticky (casefold : PyStr → PyStr) (s : Remembered) : Prop :=
  ∀ q result, s.projection.query casefold q = .ok result → ∀ handle ∈ result.handles, ¬ s.Diverged handle

def new (repository scope generation : PyStr) (identity : ∀ s ∈ [repository, scope, generation], s.strip ≠ []) :
    Remembered where
  projection := { repository, scope, generation, identity := identity }
  applied := []

variable {s} {fact f : KnowledgeFact} {handle : PyStr}

/-! ## The mark of a diverged handle -/

/-- The retained fact is one of the applied ones, and a handle with a fact of another digest or version is marked or
not active. -/
structure Guarded (s : Remembered) : Prop where
  retained : ∀ handle kept, s.projection.facts.get? handle = some kept →
    kept.stableHandle = handle ∧ kept ∈ s.applied
  settled : ∀ f ∈ s.applied, ∃ kept, s.projection.facts.get? f.stableHandle = some kept ∧
    (f.content = kept.content ∨ f.stableHandle ∈ s.projection.conflicts ∨ kept.state ≠ .active)

theorem Guarded.new (repository scope generation : PyStr) (identity) :
    Guarded (new repository scope generation identity) where
  retained := nofun
  settled := nofun

theorem applyFact_cases (p : KnowledgeProjection) (fact : KnowledgeFact) :
    (p.facts.get? fact.stableHandle = none ∧
      (p.applyFact fact).facts = p.facts.set fact.stableHandle fact ∧ (p.applyFact fact).conflicts = p.conflicts) ∨
    ∃ kept, p.facts.get? fact.stableHandle = some kept ∧
      ((kept.content = fact.content ∧ kept.state ≠ fact.state ∧
          (p.applyFact fact).facts = p.facts.set fact.stableHandle fact ∧
          (p.applyFact fact).conflicts = p.conflicts.erase fact.stableHandle) ∨
        (kept.content = fact.content ∧ kept.state = fact.state ∧ (p.applyFact fact).facts = p.facts ∧
          (p.applyFact fact).conflicts = p.conflicts) ∨
        (kept.content ≠ fact.content ∧ (p.applyFact fact).facts = p.facts ∧
          (p.applyFact fact).conflicts = insert fact.stableHandle p.conflicts)) := by
  unfold applyFact
  cases there : p.facts.get? fact.stableHandle with
  | none => exact .inl ⟨rfl, rfl, rfl⟩
  | some kept =>
    refine .inr ⟨kept, rfl, ?_⟩
    dsimp only
    by_cases same : kept.digest = fact.digest ∧ kept.version = fact.version
    · rw [if_pos same]
      have content : kept.content = fact.content := Prod.ext same.1 same.2
      by_cases state : kept.state ≠ fact.state
      · rw [if_pos state]
        exact .inl ⟨content, state, rfl, rfl⟩
      · rw [if_neg state]
        exact .inr (.inl ⟨content, not_not.1 state, rfl, rfl⟩)
    · rw [if_neg same]
      refine .inr (.inr ⟨fun content => same ?_, rfl, rfl⟩)
      exact ⟨congrArg Prod.fst content, congrArg Prod.snd content⟩

theorem Guarded.take (g : Guarded s) (careful : ¬ s.Reactivates fact) : Guarded (s.take fact) := by
  have still : ∀ f ∈ s.applied, f ∈ (s.take fact).applied := fun f mem => List.mem_cons_of_mem _ mem
  have now : fact ∈ (s.take fact).applied := List.mem_cons_self
  rcases applyFact_cases s.projection fact with ⟨absent, facts, conflicts⟩ |
    ⟨kept, there, ⟨content, state, facts, conflicts⟩ | ⟨content, state, facts, conflicts⟩ |
      ⟨content, facts, conflicts⟩⟩
  · -- The first fact of the handle, so nothing that was applied before has this handle.
    have other : ∀ f ∈ s.applied, f.stableHandle ≠ fact.stableHandle := by
      intro f mem same
      obtain ⟨kept, there, -⟩ := g.settled f mem
      rw [same, absent] at there
      cases there
    refine ⟨fun handle kept there => ?_, fun f mem => ?_⟩
    · rw [show (s.take fact).projection.facts = _ from facts, Dict.get?_set] at there
      split_ifs at there with same
      · cases there
        exact ⟨same.symm, now⟩
      · exact (g.retained _ _ there).imp_right (still _)
    · rw [show (s.take fact).projection.facts = _ from facts,
        show (s.take fact).projection.conflicts = _ from conflicts]
      rcases List.mem_cons.1 mem with rfl | mem
      · exact ⟨f, Dict.get?_set_self _ _ _, .inl rfl⟩
      · rw [Dict.get?_set_of_ne _ _ (other f mem)]
        exact g.settled f mem
  · -- Another state of the retained fact, which clears the mark.
    have inactive : s.Diverged fact.stableHandle → fact.state ≠ .active := by
      intro diverged active
      refine careful ⟨diverged, active, ?_⟩
      rw [there]
      exact decide_eq_true ⟨content, fun keptActive => state (keptActive.trans active.symm)⟩
    refine ⟨fun handle k there => ?_, fun f mem => ?_⟩
    · rw [show (s.take fact).projection.facts = _ from facts, Dict.get?_set] at there
      split_ifs at there with same
      · cases there
        exact ⟨same.symm, now⟩
      · exact (g.retained _ _ there).imp_right (still _)
    · rw [show (s.take fact).projection.facts = _ from facts,
        show (s.take fact).projection.conflicts = _ from conflicts]
      rcases List.mem_cons.1 mem with rfl | mem
      · exact ⟨f, Dict.get?_set_self _ _ _, .inl rfl⟩
      · by_cases same : f.stableHandle = fact.stableHandle
        · rw [same]
          refine ⟨fact, Dict.get?_set_self _ _ _, ?_⟩
          by_cases equal : f.content = fact.content
          · exact .inl equal
          · obtain ⟨handle, keptMem⟩ := g.retained _ _ there
            exact .inr (.inr (inactive ⟨f, mem, kept, keptMem, same, handle, fun c => equal (c.trans content)⟩))
        · rw [Dict.get?_set_of_ne _ _ same, Finset.mem_erase, and_iff_right same]
          exact g.settled f mem
  · -- The retained fact once more.
    refine ⟨fun handle k there => ?_, fun f mem => ?_⟩
    · rw [show (s.take fact).projection.facts = _ from facts] at there
      exact (g.retained _ _ there).imp_right (still _)
    · rw [show (s.take fact).projection.facts = _ from facts,
        show (s.take fact).projection.conflicts = _ from conflicts]
      rcases List.mem_cons.1 mem with rfl | mem
      · exact ⟨kept, there, .inl content.symm⟩
      · exact g.settled f mem
  · -- Another digest or version, which sets the mark.
    refine ⟨fun handle k there => ?_, fun f mem => ?_⟩
    · rw [show (s.take fact).projection.facts = _ from facts] at there
      exact (g.retained _ _ there).imp_right (still _)
    · rw [show (s.take fact).projection.facts = _ from facts,
        show (s.take fact).projection.conflicts = _ from conflicts]
      rcases List.mem_cons.1 mem with rfl | mem
      · exact ⟨kept, there, .inr (.inl (Finset.mem_insert_self _ _))⟩
      · obtain ⟨k, found, settled⟩ := g.settled f mem
        exact ⟨k, found, settled.imp_right (Or.imp_left (Finset.mem_insert_of_mem ·))⟩

theorem Guarded.drop (g : Guarded s) (handle : PyStr) : Guarded (s.drop handle) where
  retained h kept there := by
    have there : (s.projection.facts.erase handle).get? h = some kept := there
    rw [Dict.get?_erase] at there
    split_ifs at there with same
    obtain ⟨named, mem⟩ := g.retained _ _ there
    exact ⟨named, List.mem_filter.2 ⟨mem, decide_eq_true (named ▸ same)⟩⟩
  settled f mem := by
    obtain ⟨mem, other⟩ := List.mem_filter.1 mem
    have other : f.stableHandle ≠ handle := of_decide_eq_true other
    show ∃ kept, (s.projection.facts.erase handle).get? f.stableHandle = some kept ∧
      (_ ∨ f.stableHandle ∈ s.projection.conflicts.erase handle ∨ _)
    rw [Dict.get?_erase, if_neg other, Finset.mem_erase, and_iff_right other]
    exact g.settled f mem

theorem Guarded.step (g : Guarded s) {op : Operation} (careful : s.Careful op) : Guarded (s.step op) := by
  unfold Remembered.step
  cases admitted : s.projection.admitted? op with
  | none => exact g
  | some delta =>
    have taken : Guarded (run Remembered.take s delta.1) :=
      (careful delta admitted).run_invariant g fun _ _ g careful => g.take careful
    show Guarded (run Remembered.drop (run Remembered.take s delta.1) delta.2)
    generalize run Remembered.take s delta.1 = t at taken ⊢
    induction delta.2 generalizing t with
    | nil => exact taken
    | cons handle deleted ih => exact ih (t.drop handle) (taken.drop handle)

theorem mem_of_mem_select {b : Budget} {row : Row} {rows : List Row} {bytesUsed tokensUsed : ℕ}
    (mem : row ∈ (select b bytesUsed tokensUsed rows).1) : row ∈ rows := by
  induction rows generalizing bytesUsed tokensUsed with
  | nil => exact mem
  | cons r rows ih =>
    rw [select] at mem
    generalize (Json.dumps true (r.item b)).length = encodedSize at mem
    generalize (r.item b).writeWide.words = estimated at mem
    by_cases bytes : b.maxBytes < bytesUsed + encodedSize
    · rw [if_pos bytes] at mem
      cases mem
    · rw [if_neg bytes] at mem
      by_cases tokens : b.maxTokens < tokensUsed + estimated
      · rw [if_pos tokens] at mem
        cases mem
      · rw [if_neg tokens] at mem
        rcases List.mem_cons.1 mem with rfl | mem
        · exact List.mem_cons_self
        · exact List.mem_cons_of_mem _ (ih mem)

theorem eligible_of_query {p : KnowledgeProjection} {casefold : PyStr → PyStr} {q : Query} {result : PrecedentResult}
    (returned : p.query casefold q = .ok result) (mem : handle ∈ result.handles) :
    ∃ fact ∈ p.facts.values, fact.stableHandle = handle ∧ handle ∉ p.conflicts ∧ fact.state = .active := by
  obtain ⟨b, -, rfl⟩ : ∃ b, readQuery q = .ok b ∧ _ = result := by
    unfold query at returned
    cases read : readQuery q with
    | error raised => rw [read] at returned; cases returned
    | ok b => rw [read] at returned; exact ⟨b, rfl, Except.ok.inj returned⟩
  obtain ⟨row, selected, rfl⟩ := List.mem_map.1 mem
  have chosen : row ∈ p.candidates casefold b := List.mem_of_mem_take (mem_of_mem_select selected)
  unfold candidates at chosen
  rw [List.mem_insertionSort, List.mem_filter, List.mem_map] at chosen
  obtain ⟨⟨fact, kept, rfl⟩, -⟩ := chosen
  obtain ⟨stored, candidate⟩ := List.mem_filter.1 kept
  refine ⟨fact, stored, rfl, ?_⟩
  unfold isCandidate at candidate
  simp only [Bool.and_eq_true, Bool.not_eq_true', Bool.or_eq_false_iff, decide_eq_false_iff_not, not_not] at candidate
  exact ⟨candidate.1.1.1.1.1, candidate.1.1.1.2⟩

theorem Guarded.sticky (g : Guarded s) (casefold : PyStr → PyStr) : Sticky casefold s := by
  rintro q result returned handle mem ⟨f, fMem, f', fMem', handleF, handleF', differ⟩
  obtain ⟨fact, factMem, named, unmarked, active⟩ := eligible_of_query returned mem
  obtain ⟨key, there⟩ := (Dict.mem_values_iff _ _).1 factMem
  obtain rfl : key = handle := (g.retained _ _ there).1.symm.trans named
  have equal : ∀ f ∈ s.applied, f.stableHandle = key → f.content = fact.content := by
    intro f mem same
    obtain ⟨kept, found, settled⟩ := g.settled f mem
    rw [same, there] at found
    cases found
    rcases settled with content | marked | inactive
    · exact content
    · exact absurd (same ▸ marked) unmarked
    · exact absurd active inactive
  exact differ ((equal f fMem handleF).trans (equal f' fMem' handleF').symm)

/-- In a run that makes no diverged handle active again, no query ever returns a diverged handle. -/
theorem always_sticky (casefold : PyStr → PyStr) (repository scope generation : PyStr) (identity)
    (ops : List Operation) (careful : Along step Careful (new repository scope generation identity) ops) :
    Always step (Sticky casefold) (new repository scope generation identity) ops := by
  intro before after split
  subst split
  rw [along_append] at careful
  have guarded : Guarded (run step (new repository scope generation identity) before) :=
    careful.1.run_invariant (Guarded.new _ _ _ _) fun _ _ g careful => g.step careful
  exact guarded.sticky casefold

/-! ## A conflict, then a revocation and a restoration -/

/-- A fact of the handle `notes`. -/
def notes (version digest : PyStr) (state : FactState)
    (named : version.strip ≠ [] ∧ digest.strip ≠ [] := by decide +kernel) : KnowledgeFact where
  sourceType := "precedent"
  producer := "mapper"
  stableHandle := "notes"
  version := version
  provenance := ["mapper"]
  trust := "verified"
  digest := digest
  text := "release notes"
  repository := "repo"
  scope := "main"
  validFrom := none
  validUntil := none
  state := state
  applicability := []
  identity := by
    have rest : ∀ s ∈ (["precedent", "mapper", "notes", "verified", "repo", "main"] : List PyStr), s.strip ≠ [] := by
      decide +kernel
    simp only [List.forall_mem_cons] at rest ⊢
    exact ⟨rest.1, rest.2.1, rest.2.2.1, named.1, rest.2.2.2.1, named.2, rest.2.2.2.2.1, rest.2.2.2.2.2.1, nofun⟩
  sourced := by decide +kernel
  applicable := nofun
  bounded := nofun

def single (fact : KnowledgeFact) : Operation := .applyDelta (some [some fact]) (some [])

/-- The second version conflicts; the first one is revoked, tombstoned and applied once more. -/
def buriedRun : List Operation :=
  [single (notes "1" "a" .active), single (notes "2" "b" .active), single (notes "1" "a" .revoked),
    .applyDelta (some []) (some [.str "notes"]), single (notes "1" "a" .revoked), single (notes "1" "a" .active)]

theorem always_sticky_buriedRun :
    Always step (Sticky PyStr.asciiCasefold) (new "repo" "main" "1" (by decide +kernel)) buriedRun :=
  always_sticky PyStr.asciiCasefold "repo" "main" "1" (by decide +kernel) buriedRun (by decide +kernel)

/-- The second version conflicts; the first one is revoked and restored. -/
def restoredRun : List Operation :=
  [single (notes "1" "a" .active), single (notes "2" "b" .active), single (notes "1" "a" .revoked),
    single (notes "1" "a" .active)]

theorem not_always_sticky_restoredRun :
    ¬ Always step (Sticky PyStr.asciiCasefold) (new "repo" "main" "1" (by decide +kernel)) restoredRun := by
  intro always
  have sticky := always restoredRun [] (List.append_nil _).symm
  generalize reached : run step (new "repo" "main" "1" (by decide +kernel)) restoredRun = s at sticky
  have diverged : s.Diverged "notes" := by
    rw [← reached]
    decide +kernel
  have returned : (s.projection.query PyStr.asciiCasefold { task := .str "notes" }).toOption.any fun result =>
      ("notes" : PyStr) ∈ result.handles := by
    rw [← reached]
    decide +kernel
  cases answer : s.projection.query PyStr.asciiCasefold { task := .str "notes" } with
  | error raised =>
    rw [answer] at returned
    cases returned
  | ok result =>
    rw [answer] at returned
    exact sticky _ result answer "notes" (of_decide_eq_true returned) diverged

end Remembered

end KnowledgeProjection

end SimplicioFast
