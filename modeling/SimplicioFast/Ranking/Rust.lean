import SimplicioFast.Lib.Utf8Order
import SimplicioFast.Ranking.Basic

/-!
# The ranking of the Rust core

`rank_capabilities` as `capability_ranking.rs` computes it.  A `String` is a text without surrogates, compared by its
UTF-8 bytes; an `i64` is an integer of 64 bits.  An operation that overflows panics in a debug build and wraps around
in a release build.
-/

namespace SimplicioFast

namespace Ranking

namespace Rust

/-! ## The arguments -/

/-- The values of `i64`. -/
def IsI64 (n : ℤ) : Prop := -2 ^ 63 ≤ n ∧ n < 2 ^ 63

instance (n : ℤ) : Decidable (IsI64 n) := inferInstanceAs (Decidable (_ ∧ _))

/-- The values of `String`. -/
def IsString (s : PyStr) : Prop := s.chars?.isSome = true

instance (s : PyStr) : Decidable (IsString s) := inferInstanceAs (Decidable (_ = true))

/-- The fields of a candidate have the types of the Rust structure. -/
structure CandidateTyped (c : CapabilityCandidate) : Prop where
  texts : ∀ s ∈ [c.handle, c.kind, c.version, c.trust, c.scope, c.metricClass, c.health], IsString s
  capabilities : ∀ s ∈ c.capabilities, IsString s
  provenance : ∀ s ∈ c.provenance, IsString s
  numbers : ∀ value ∈ [c.estimatedCost, c.estimatedLatencyMs, c.freshnessSeconds], ∀ n ∈ value, IsI64 n

/-- The fields of a request have the types of the Rust structure. -/
structure RequestTyped (request : RankRequest) : Prop where
  maxResults : 0 ≤ request.maxResults ∧ request.maxResults < 2 ^ 64
  texts : ∀ value ∈ [request.requiredScope, request.requiredTrust], ∀ s ∈ value, IsString s
  numbers : ∀ n ∈ request.maxFreshnessSeconds, IsI64 n

/-- The arguments of one call; a vector has less than `2 ^ 63` elements. -/
structure Input where
  candidates : List CapabilityCandidate
  required : List PyStr
  request : RankRequest
  candidatesTyped : ∀ c ∈ candidates, CandidateTyped c
  requiredTyped : ∀ s ∈ required, IsString s
  requestTyped : RequestTyped request
  requiredLength : required.length < 2 ^ 63

/-! ## Arithmetic -/

/-- The two build profiles. -/
inductive Profile
  | debug
  | release
deriving DecidableEq

/-- How a call fails. -/
inductive Failure
  | rejected (reasonCode : PyStr)
  | panic
deriving DecidableEq

/-- The outcome of an `i64` operation whose value is `n`. -/
def arith (profile : Profile) (n : ℤ) : Except Failure ℤ :=
  if IsI64 n then .ok n
  else match profile with
    | .debug => .error .panic
    | .release => .ok (n.bmod (2 ^ 64))

/-- `len as i64`. -/
def asI64 (len : ℕ) : ℤ := (len : ℤ).bmod (2 ^ 64)

/-- `value.map(|value| -value)`. -/
def negate (profile : Profile) : Option ℤ → Except Failure (Option ℤ)
  | none => .ok none
  | some value => (arith profile (-value)).map some

/-- `first + second + …`. -/
def addAll (profile : Profile) (first : ℤ) (terms : List ℤ) : Except Failure ℤ :=
  terms.foldlM (fun sum term => arith profile (sum + term)) first

/-! ## Strings -/

/-- `char::is_whitespace`. -/
def isWhitespace (c : PyChar) : Bool :=
  (9 ≤ c.code && c.code ≤ 13) || c.code = 32 || c.code = 0x85 || c.code = 0xA0 || c.code = 0x1680 ||
    (0x2000 ≤ c.code && c.code ≤ 0x200A) || c.code = 0x2028 || c.code = 0x2029 || c.code = 0x202F ||
    c.code = 0x205F || c.code = 0x3000

/-- `value.trim().is_empty()`. -/
def trimIsEmpty (value : PyStr) : Bool := value.stripIf isWhitespace = []

/-- The bytes of a `String`. -/
def asBytes (s : PyStr) : Bytes := s.encode.getD []

/-- `cmp` of two `String`s. -/
def compareStr (a b : PyStr) : Ordering := compareOfLessAndEq (asBytes a) (asBytes b)

/-- The elements of a `BTreeSet<String>`, in their order. -/
def bTreeSet (l : List PyStr) : List PyStr := l.dedup.insertionSort fun a b => (compareStr a b).isLE

/-! ## The checks -/

/-- `CapabilityCandidate::validate`. -/
def validate (c : CapabilityCandidate) : Except Failure Unit :=
  if [c.handle, c.kind, c.version, c.trust].any trimIsEmpty then .error (.rejected "candidate_identity_invalid")
  else if c.capabilities.any trimIsEmpty then .error (.rejected "candidate_capabilities_invalid")
  else if c.provenance.any trimIsEmpty then .error (.rejected "candidate_provenance_invalid")
  else if trimIsEmpty c.scope then .error (.rejected "candidate_scope_invalid")
  else if isNegative c.estimatedCost || isNegative c.estimatedLatencyMs then
    .error (.rejected "candidate_cost_invalid")
  else if c.metricClass ∉ METRIC_CLASSES then .error (.rejected "candidate_metric_class_invalid")
  else if isNegative c.freshnessSeconds then .error (.rejected "candidate_freshness_invalid")
  else if c.health ∉ HEALTH_STATES then .error (.rejected "candidate_health_invalid")
  else .ok ()

def trustRank (value : PyStr) : Option ℤ :=
  TRUST_RANK.findSome? fun level => if level.1 = value then some level.2 else none

/-- The check of the request at the start of `rank_capabilities`. -/
def checkRequest (required : List PyStr) (request : RankRequest) : Except Failure Unit :=
  let invalidRequiredTrust := request.requiredTrust.any fun value => (trustRank value).isNone
  let invalidMaxFreshness := isNegative request.maxFreshnessSeconds
  if required.isEmpty || required.any trimIsEmpty || request.maxResults = 0 || MAX_RESULTS < request.maxResults ||
      request.requiredScope.any trimIsEmpty || invalidRequiredTrust || invalidMaxFreshness then
    .error (.rejected (if invalidRequiredTrust then "ranking_trust_invalid"
      else if invalidMaxFreshness then "ranking_freshness_invalid" else "ranking_request_invalid"))
  else .ok ()

/-! ## The facts -/

/-- The fact of a candidate that is valid. -/
def factOf (profile : Profile) (requiredSet : List PyStr) (request : RankRequest) (c : CapabilityCandidate) :
    Except Failure Fact := do
  let matched := requiredSet.filter fun value => value ∈ c.capabilities
  let missing := requiredSet.filter fun value => value ∉ c.capabilities
  let scopeMatch := request.requiredScope.all fun scope => c.scope = "*" || c.scope = scope
  let trustMatch := request.requiredTrust.all fun trust =>
    (trustRank trust).getD (-1) ≤ (trustRank c.trust).getD (-1)
  let freshnessMatch := request.maxFreshnessSeconds.all fun maximum => c.freshnessSeconds.any (· ≤ maximum)
  let policy := policyName c.policyEligible
  let eligible := missing.isEmpty && c.available && policy = "eligible" && scopeMatch && trustMatch && freshnessMatch
  let costScore ← negate profile c.estimatedCost
  let latencyScore ← negate profile c.estimatedLatencyMs
  let availabilityScore := if c.available then 0 else -10000
  let policyScore := if policy = "eligible" then 0 else if policy = "rejected" then -10000 else -5000
  let scopeScore := if scopeMatch then 0 else -10000
  let trustScore := if trustMatch then 0 else -10000
  let freshnessScore := if freshnessMatch then 0 else -10000
  let matchedScore ← arith profile (asI64 matched.length * 100)
  let missingScore ← arith profile (asI64 missing.length * -1000)
  let score ← addAll profile matchedScore [missingScore, costScore.getD 0, latencyScore.getD 0, availabilityScore,
    policyScore, scopeScore, trustScore, freshnessScore]
  let reason : PyStr :=
    if !missing.isEmpty then "missing_required_capabilities"
    else if !c.available then "unavailable"
    else if policy ≠ "eligible" then if policy = "rejected" then "policy_rejected" else "policy_unknown"
    else if !scopeMatch then "scope_mismatch"
    else if !trustMatch then "trust_below_floor"
    else if !freshnessMatch then
      if c.freshnessSeconds.isNone then "freshness_unknown" else "freshness_stale"
    else "eligible"
  return {
    handle := c.handle
    kind := c.kind
    version := c.version
    matchedCapabilities := matched
    missingCapabilities := missing
    trust := c.trust
    available := c.available
    scope := c.scope
    health := c.health
    freshnessSeconds := c.freshnessSeconds
    policyEligibility := policy
    eligible := eligible
    hardFilter :=
      { missingCapabilities := missing.isEmpty
        available := c.available
        policyEligibility := policy = "eligible"
        scope := scopeMatch
        trust := trustMatch
        freshness := freshnessMatch }
    metricClass := c.metricClass
    estimatedCost := c.estimatedCost
    estimatedLatencyMs := c.estimatedLatencyMs
    score := score
    scoreComponents :=
      { matchedCapabilities := matchedScore
        missingCapabilities := missingScore
        cost := costScore
        latency := latencyScore
        availability := availabilityScore
        policy := policyScore
        scope := scopeScore
        trust := trustScore
        freshness := freshnessScore }
    selectionReason := reason
    provenance := c.provenance }

/-- A turn of the loop over the candidates. -/
def collectTurn (profile : Profile) (requiredSet : List PyStr) (request : RankRequest) (facts : List Fact)
    (c : CapabilityCandidate) : Except Failure (List Fact) :=
  if MAX_CANDIDATES ≤ facts.length then .error (.rejected "candidate_count_limit")
  else do
    validate c
    let fact ← factOf profile requiredSet request c
    return facts ++ [fact]

/-- The order of `facts.sort_by`. -/
def compareFacts (left right : Fact) : Ordering :=
  (compare right.eligible left.eligible).then <| (compare right.score left.score).then <|
    (compareStr left.handle right.handle).then (compareStr left.version right.version)

/-- The order of `frontier.sort_by`. -/
def compareEntries (left right : FrontierEntry) : Ordering :=
  (compareStr left.handle right.handle).then (compareStr left.version right.version)

def rankCapabilities (profile : Profile) (input : Input) : Except Failure Catalog := do
  checkRequest input.required input.request
  let requiredSet := bTreeSet input.required
  let collected ← input.candidates.foldlM (collectTurn profile requiredSet input.request) []
  let facts := collected.insertionSort fun a b => (compareFacts a b).isLE
  let frontier := (undominated (measured facts)).insertionSort fun a b => (compareEntries a b).isLE
  return {
    requiredCapabilities := requiredSet
    requiredScope := input.request.requiredScope
    requiredTrust := input.request.requiredTrust
    maxFreshnessSeconds := input.request.maxFreshnessSeconds
    candidates := facts.take input.request.maxResults.toNat
    paretoFrontier := frontier
    truncated := input.request.maxResults < facts.length }

end Rust

end Ranking

end SimplicioFast
