import Mathlib
import SimplicioFast.Lib.Text

/-!
# The ranking of capabilities

`rank_capabilities` as `capability_ranking.py` computes it: every candidate becomes a fact with its hard filters and a
score, the facts are sorted, and the eligible ones with both estimates that no other dominates are the frontier.

The arguments have the types of their annotations, so that no `isinstance` test is left.  The facts and the catalog
are records with the keys of the dictionaries as fields.
-/

namespace SimplicioFast

namespace Ranking

/-- The fields of `CapabilityCandidate`. -/
structure CapabilityCandidate where
  handle : PyStr
  kind : PyStr
  version : PyStr
  capabilities : List PyStr
  trust : PyStr := "unknown"
  available : Bool := true
  estimatedCost : Option ℤ := none
  estimatedLatencyMs : Option ℤ := none
  provenance : List PyStr := []
  policyEligible : Option Bool := none
  scope : PyStr := "*"
  metricClass : PyStr := "unknown"
  freshnessSeconds : Option ℤ := none
  health : PyStr := "unknown"

/-- The optional arguments of a ranking. -/
structure RankRequest where
  maxResults : ℤ := 32
  requiredScope : Option PyStr := none
  requiredTrust : Option PyStr := none
  maxFreshnessSeconds : Option ℤ := none

structure HardFilter where
  missingCapabilities : Bool
  available : Bool
  policyEligibility : Bool
  scope : Bool
  trust : Bool
  freshness : Bool
deriving DecidableEq

structure ScoreComponents where
  matchedCapabilities : ℤ
  missingCapabilities : ℤ
  cost : Option ℤ
  latency : Option ℤ
  availability : ℤ
  policy : ℤ
  scope : ℤ
  trust : ℤ
  freshness : ℤ
deriving DecidableEq

def FACT_SCHEMA : PyStr := "simplicio.fast.capability-fact/v1"

def CATALOG_SCHEMA : PyStr := "simplicio.fast.capability-catalog-projection/v1"

def MAX_CANDIDATES : ℕ := 100000

def MAX_RESULTS : ℤ := 10000

/-- A fact of the catalog. -/
structure Fact where
  schema : PyStr := FACT_SCHEMA
  handle : PyStr
  kind : PyStr
  version : PyStr
  matchedCapabilities : List PyStr
  missingCapabilities : List PyStr
  trust : PyStr
  available : Bool
  scope : PyStr
  health : PyStr
  freshnessSeconds : Option ℤ
  policyEligibility : PyStr
  eligible : Bool
  hardFilter : HardFilter
  metricClass : PyStr
  estimatedCost : Option ℤ
  estimatedLatencyMs : Option ℤ
  score : ℤ
  scoreComponents : ScoreComponents
  selectionReason : PyStr
  provenance : List PyStr
deriving DecidableEq

/-- An entry of `pareto_frontier`. -/
structure FrontierEntry where
  handle : PyStr
  version : PyStr
  estimatedCost : Option ℤ
  estimatedLatencyMs : Option ℤ
  metricClass : PyStr
deriving DecidableEq

/-- The catalog that a ranking returns. -/
structure Catalog where
  schema : PyStr := CATALOG_SCHEMA
  requiredCapabilities : List PyStr
  requiredScope : Option PyStr
  requiredTrust : Option PyStr
  maxFreshnessSeconds : Option ℤ
  candidates : List Fact
  paretoFrontier : List FrontierEntry
  truncated : Bool
  authority : PyStr := "advisory_only"
  authorizationOwner : PyStr := "agent-loop-runtime"
deriving DecidableEq

/-- `_TRUST_RANK`, and `TRUST_LEVELS` of the Rust core. -/
def TRUST_RANK : List (PyStr × ℤ) :=
  [("untrusted", 0), ("derived_fact", 1), ("advisory", 2), ("verified", 3), ("authoritative", 4)]

def METRIC_CLASSES : List PyStr := ["unknown", "estimated", "measured", "simulated"]

def HEALTH_STATES : List PyStr := ["unknown", "healthy", "degraded", "unhealthy"]

/-! ## The checks -/

/-- `not value.strip()`. -/
def isBlank (value : PyStr) : Bool := value.strip = []

/-- Whether an optional number is there and negative. -/
def isNegative (value : Option ℤ) : Bool := value.any (· < 0)

/-- `CapabilityCandidate.__post_init__`: the reason for which the fields are refused. -/
def postInit (c : CapabilityCandidate) : Except PyStr Unit :=
  if [c.handle, c.kind, c.version, c.trust].any isBlank then .error "candidate_identity_invalid"
  else if c.capabilities.any isBlank then .error "candidate_capabilities_invalid"
  else if c.provenance.any isBlank then .error "candidate_provenance_invalid"
  else if isBlank c.scope then .error "candidate_scope_invalid"
  else if isNegative c.estimatedCost || isNegative c.estimatedLatencyMs then .error "candidate_cost_invalid"
  else if c.metricClass ∉ METRIC_CLASSES then .error "candidate_metric_class_invalid"
  else if isNegative c.freshnessSeconds then .error "candidate_freshness_invalid"
  else if c.health ∉ HEALTH_STATES then .error "candidate_health_invalid"
  else .ok ()

/-- The check of the request at the start of `rank_capabilities`. -/
def checkRequest (required : List PyStr) (request : RankRequest) : Except PyStr Unit :=
  let invalidRequiredTrust := request.requiredTrust.any fun trust => (TRUST_RANK.lookup trust).isNone
  let invalidMaxFreshness := isNegative request.maxFreshnessSeconds
  if required.isEmpty || required.any isBlank || !(0 < request.maxResults && request.maxResults ≤ MAX_RESULTS) ||
      request.requiredScope.any isBlank || invalidRequiredTrust || invalidMaxFreshness then
    .error (if invalidRequiredTrust then "ranking_trust_invalid"
      else if invalidMaxFreshness then "ranking_freshness_invalid" else "ranking_request_invalid")
  else .ok ()

/-! ## The facts -/

/-- `_split_required_capabilities`: the matched and the missing capabilities, in their order. -/
def splitRequiredCapabilities (requiredCapabilities available : List PyStr) : List PyStr × List PyStr :=
  requiredCapabilities.foldl (fun split capability =>
    if capability ∈ available then (split.1 ++ [capability], split.2)
    else (split.1, split.2 ++ [capability])) ([], [])

def policyName : Option Bool → PyStr
  | some true => "eligible"
  | some false => "rejected"
  | none => "unknown"

/-- `_TRUST_RANK.get(trust, -1)`. -/
def trustRank (trust : PyStr) : ℤ := (TRUST_RANK.lookup trust).getD (-1)

/-- `hard_filter` of a candidate with the given missing capabilities. -/
def hardFilter (request : RankRequest) (missing : List PyStr) (c : CapabilityCandidate) : HardFilter where
  missingCapabilities := missing.isEmpty
  available := c.available
  policyEligibility := policyName c.policyEligible = "eligible"
  scope := request.requiredScope.all fun scope => c.scope = "*" || c.scope = scope
  trust := request.requiredTrust.all fun trust => trustRank trust ≤ trustRank c.trust
  freshness := request.maxFreshnessSeconds.all fun maximum => c.freshnessSeconds.any (· ≤ maximum)

/-- `all(hard_filter.values())`. -/
def HardFilter.passes (f : HardFilter) : Bool :=
  f.missingCapabilities && f.available && f.policyEligibility && f.scope && f.trust && f.freshness

def scoreComponents (matched missing : List PyStr) (filter : HardFilter) (c : CapabilityCandidate) :
    ScoreComponents where
  matchedCapabilities := matched.length * 100
  missingCapabilities := -missing.length * 1000
  cost := c.estimatedCost.map (-·)
  latency := c.estimatedLatencyMs.map (-·)
  availability := if c.available then 0 else -10000
  policy := if policyName c.policyEligible = "eligible" then 0
    else if policyName c.policyEligible = "rejected" then -10000 else -5000
  scope := if filter.scope then 0 else -10000
  trust := if filter.trust then 0 else -10000
  freshness := if filter.freshness then 0 else -10000

/-- `score_components.values()`. -/
def ScoreComponents.values (s : ScoreComponents) : List (Option ℤ) :=
  [s.matchedCapabilities, s.missingCapabilities, s.cost, s.latency, s.availability, s.policy, s.scope, s.trust,
    s.freshness]

/-- The sum of the components that are ints. -/
def ScoreComponents.score (s : ScoreComponents) : ℤ := (s.values.filterMap id).sum

def selectionReason (missing : List PyStr) (filter : HardFilter) (c : CapabilityCandidate) : PyStr :=
  if !missing.isEmpty then "missing_required_capabilities"
  else if !c.available then "unavailable"
  else if policyName c.policyEligible ≠ "eligible" then ("policy_" : PyStr) ++ policyName c.policyEligible
  else if !filter.scope then "scope_mismatch"
  else if !filter.trust then "trust_below_floor"
  else if !filter.freshness then
    if c.freshnessSeconds = none then "freshness_unknown" else "freshness_stale"
  else "eligible"

def factOf (orderedRequired : List PyStr) (request : RankRequest) (c : CapabilityCandidate) : Fact :=
  let (matched, missing) := splitRequiredCapabilities orderedRequired c.capabilities
  let filter := hardFilter request missing c
  let components := scoreComponents matched missing filter c
  { handle := c.handle
    kind := c.kind
    version := c.version
    matchedCapabilities := matched
    missingCapabilities := missing
    trust := c.trust
    available := c.available
    scope := c.scope
    health := c.health
    freshnessSeconds := c.freshnessSeconds
    policyEligibility := policyName c.policyEligible
    eligible := filter.passes
    hardFilter := filter
    metricClass := c.metricClass
    estimatedCost := c.estimatedCost
    estimatedLatencyMs := c.estimatedLatencyMs
    score := components.score
    scoreComponents := components
    selectionReason := selectionReason missing filter c
    provenance := c.provenance }

def collectFacts (orderedRequired : List PyStr) (request : RankRequest) (candidates : List CapabilityCandidate) :
    Except PyStr (List Fact) :=
  candidates.foldlM (fun facts c =>
    if MAX_CANDIDATES ≤ facts.length then .error "candidate_count_limit"
    else .ok (facts ++ [factOf orderedRequired request c])) []

/-- The key of `facts.sort`. -/
def Fact.key (f : Fact) : ℤ ×ₗ ℤ ×ₗ PyStr ×ₗ PyStr :=
  toLex (if f.eligible then -1 else 0, toLex (-f.score, toLex (f.handle, f.version)))

/-! ## The frontier -/

/-- The eligible facts with both estimates. -/
def measured (facts : List Fact) : List Fact :=
  facts.filter fun item => item.eligible && item.estimatedCost.isSome && item.estimatedLatencyMs.isSome

/-- Whether two estimates that are there compare. -/
def compares (r : ℤ → ℤ → Bool) (a b : Option ℤ) : Bool := a.any fun x => b.any fun y => r x y

/-- Whether one measured fact dominates another. -/
def dominates (other item : Fact) : Bool :=
  compares (· ≤ ·) other.estimatedCost item.estimatedCost &&
    compares (· ≤ ·) other.estimatedLatencyMs item.estimatedLatencyMs &&
    (compares (· < ·) other.estimatedCost item.estimatedCost ||
      compares (· < ·) other.estimatedLatencyMs item.estimatedLatencyMs)

def Fact.entry (f : Fact) : FrontierEntry where
  handle := f.handle
  version := f.version
  estimatedCost := f.estimatedCost
  estimatedLatencyMs := f.estimatedLatencyMs
  metricClass := f.metricClass

/-- The loop over the measured facts, in both languages: a fact at another position may dominate. -/
def undominated (items : List Fact) : List FrontierEntry :=
  (items.zipIdx.filter fun item =>
    !items.zipIdx.any fun other => other.2 ≠ item.2 && dominates other.1 item.1).map fun item => item.1.entry

/-- The key of `frontier.sort`. -/
def FrontierEntry.key (e : FrontierEntry) : PyStr ×ₗ PyStr := toLex (e.handle, e.version)

def rankCapabilities (candidates : List CapabilityCandidate) (required : List PyStr) (request : RankRequest) :
    Except PyStr Catalog := do
  checkRequest required request
  let orderedRequired := PyStr.sortedSet required
  let collected ← collectFacts orderedRequired request candidates
  let facts := collected.insertionSort fun a b => a.key ≤ b.key
  let frontier := (undominated (measured facts)).insertionSort fun a b => a.key ≤ b.key
  return {
    requiredCapabilities := orderedRequired
    requiredScope := request.requiredScope
    requiredTrust := request.requiredTrust
    maxFreshnessSeconds := request.maxFreshnessSeconds
    candidates := facts.take request.maxResults.toNat
    paretoFrontier := frontier
    truncated := request.maxResults < facts.length }

/-- The candidates are built, and then ranked. -/
def rank (candidates : List CapabilityCandidate) (required : List PyStr) (request : RankRequest) :
    Except PyStr Catalog := do
  candidates.forM postInit
  rankCapabilities candidates required request

end Ranking

end SimplicioFast
