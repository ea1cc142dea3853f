import Mathlib.Data.List.MinMax
import Mathlib.Data.Prod.Lex
import SimplicioFast.Lib.Text

/-!
# The Pareto policy

`ParetoPolicy.decide` selects one of the candidates that pass the hard filters: it drops those that another one
dominates, and takes the best score of a profile among the others.

A finite float is a rational number.  The rounding of float operations is a parameter.  The digests of a decision and
the evidence of a candidate, which no choice depends on, are left out.
-/

namespace SimplicioFast

namespace Pareto

/-- The metrics of a candidate, with the names of its fields. -/
inductive Metric
  | quality
  | tokensPerSecond
  | ttftMs
  | residentBytes
  | peakBytes
  | bytesPerToken
  | kvBytesPerToken
  | transferBytes
  | transferMs
  | diskBytes
  | diskMs
  | energyJoules
deriving DecidableEq

/-- An int or a finite float. -/
inductive Number
  | int (n : ℕ)
  | float (q : ℚ)
deriving DecidableEq

def Number.value : Number → ℚ
  | int n => n
  | float q => q

/-- `RepresentationKind`. -/
inductive RepresentationKind
  | denseQuant
  | sqtn
  | mixed
deriving DecidableEq

def RepresentationKind.value : RepresentationKind → PyStr
  | denseQuant => "dense_quant"
  | sqtn => "sqtn"
  | mixed => "mixed"

structure RepresentationCandidate where
  name : PyStr
  representation : RepresentationKind
  quality : ℚ
  residentBytes : Option ℕ := none
  peakBytes : Option ℕ := none
  bytesPerToken : Option ℚ := none
  kvBytesPerToken : Option ℚ := none
  tokensPerSecond : Option ℚ := none
  ttftMs : Option ℚ := none
  transferBytes : Option ℕ := none
  transferMs : Option ℚ := none
  diskBytes : Option ℕ := none
  diskMs : Option ℚ := none
  energyJoules : Option ℚ := none
  available : Bool := true
  hardwareFingerprint : Option PyStr := none
  contextFingerprint : Option PyStr := none
  workloadFingerprint : Option PyStr := none
deriving DecidableEq

/-- `PolicyContext`; the identity of the generation is not used for a choice. -/
structure PolicyContext where
  hardwareFingerprint : PyStr := "unknown"
  contextFingerprint : PyStr := "unknown"
  workloadFingerprint : PyStr := "unknown"
  residentBudgetBytes : Option ℕ := none
  peakBudgetBytes : Option ℕ := none
  bytesPerTokenBudget : Option ℚ := none
  kvBytesPerTokenBudget : Option ℚ := none
  qualityThreshold : Option ℚ := none

/-- `Profile`. -/
inductive Profile
  | quality
  | balanced
  | memory
  | minimal
deriving DecidableEq

/-- How `decide` fails: with a reason, or with the `OverflowError` of `float`. -/
inductive ParetoFailure
  | rejected (reason : PyStr)
  | overflow
deriving DecidableEq

/-! ## Domination -/

def MAXIMIZE : List Metric := [.quality, .tokensPerSecond]

def OBJECTIVES : List Metric :=
  [.quality, .tokensPerSecond, .ttftMs, .residentBytes, .peakBytes, .bytesPerToken, .kvBytesPerToken, .transferBytes,
    .transferMs, .diskBytes, .diskMs, .energyJoules]

def candidateMetric (candidate : RepresentationCandidate) : Metric → Option Number
  | .quality => some (.float candidate.quality)
  | .tokensPerSecond => candidate.tokensPerSecond.map .float
  | .ttftMs => candidate.ttftMs.map .float
  | .residentBytes => candidate.residentBytes.map .int
  | .peakBytes => candidate.peakBytes.map .int
  | .bytesPerToken => candidate.bytesPerToken.map .float
  | .kvBytesPerToken => candidate.kvBytesPerToken.map .float
  | .transferBytes => candidate.transferBytes.map .int
  | .transferMs => candidate.transferMs.map .float
  | .diskBytes => candidate.diskBytes.map .int
  | .diskMs => candidate.diskMs.map .float
  | .energyJoules => candidate.energyJoules.map .float

/-- `comparisons`: the values of the metrics that both candidates have. -/
def comparisons (first second : RepresentationCandidate) : List (ℚ × ℚ × Bool) :=
  OBJECTIVES.filterMap fun metric => match candidateMetric first metric, candidateMetric second metric with
    | some a, some b => some (a.value, b.value, MAXIMIZE.contains metric)
    | _, _ => none

def dominates (first second : RepresentationCandidate) : Bool :=
  let compared := comparisons first second
  if compared = [] then false
  else
    let noWorse := compared.all fun e => if e.2.2 then decide (e.2.1 ≤ e.1) else decide (e.1 ≤ e.2.1)
    let strictlyBetter := compared.any fun e => if e.2.2 then decide (e.2.1 < e.1) else decide (e.1 < e.2.1)
    noWorse && strictlyBetter

/-! ## Hard filters -/

/-- The state of the loops of `_hard_filters`: the filters and the first reason. -/
abbrev Filters : Type := List (PyStr × Bool) × Option PyStr

/-- A turn of the loop over the budgets. -/
def budgetTurn (state : Filters) (row : PyStr × Option ℚ × Option ℚ) : Filters :=
  let (label, value, budget) := row
  let passes := match budget, value with
    | none, _ => true
    | some _, none => false
    | some budget, some value => decide (value ≤ budget)
  (state.1 ++ [(label, passes)],
    if !passes && state.2.isNone then
      some (label ++ if value.isNone then ("_unknown" : PyStr) else ("_exceeded" : PyStr))
    else state.2)

/-- A turn of the loop over the fingerprints. -/
def fingerprintTurn (state : Filters) (row : PyStr × Option PyStr × PyStr) : Filters :=
  let (label, value, expected) := row
  let passes := value.isNone || expected = "unknown" || value = some expected
  (state.1 ++ [(label, passes)],
    if !passes && state.2.isNone then some (label ++ ("_mismatch" : PyStr)) else state.2)

def hardFilters (candidate : RepresentationCandidate) (context : PolicyContext) (qualityThreshold : ℚ) : Filters :=
  let enough := decide (qualityThreshold ≤ candidate.quality)
  let reason : Option PyStr := if !enough then some "quality_below_threshold"
    else if !candidate.available then some "candidate_unavailable" else none
  let state : Filters := ([("quality_threshold", enough), ("available", candidate.available)], reason)
  let budgets : List (PyStr × Option ℚ × Option ℚ) :=
    [("resident_budget", candidate.residentBytes.map (↑), context.residentBudgetBytes.map (↑)),
      ("peak_budget", candidate.peakBytes.map (↑), context.peakBudgetBytes.map (↑)),
      ("bytes_per_token_budget", candidate.bytesPerToken, context.bytesPerTokenBudget),
      ("kv_bytes_per_token_budget", candidate.kvBytesPerToken, context.kvBytesPerTokenBudget)]
  let fingerprints : List (PyStr × Option PyStr × PyStr) :=
    [("hardware_fingerprint", candidate.hardwareFingerprint, context.hardwareFingerprint),
      ("context_fingerprint", candidate.contextFingerprint, context.contextFingerprint),
      ("workload_fingerprint", candidate.workloadFingerprint, context.workloadFingerprint)]
  fingerprints.foldl fingerprintTurn (budgets.foldl budgetTurn state)

def isEligible (context : PolicyContext) (qualityThreshold : ℚ) (candidate : RepresentationCandidate) : Bool :=
  (hardFilters candidate context qualityThreshold).1.all Prod.snd

/-! ## Scores -/

/-- `_PROFILE_WEIGHTS`, as the literals are written. -/
def profileWeights : Profile → List (Metric × ℚ)
  | .quality => [(.quality, 70 / 100), (.tokensPerSecond, 15 / 100), (.ttftMs, 10 / 100), (.energyJoules, 5 / 100)]
  | .balanced => [(.quality, 35 / 100), (.tokensPerSecond, 20 / 100), (.ttftMs, 15 / 100), (.residentBytes, 8 / 100),
      (.peakBytes, 8 / 100), (.transferMs, 4 / 100), (.diskMs, 4 / 100), (.energyJoules, 6 / 100)]
  | .memory => [(.residentBytes, 30 / 100), (.peakBytes, 30 / 100), (.bytesPerToken, 12 / 100),
      (.kvBytesPerToken, 12 / 100), (.quality, 10 / 100), (.tokensPerSecond, 6 / 100)]
  | .minimal => [(.residentBytes, 25 / 100), (.peakBytes, 25 / 100), (.bytesPerToken, 15 / 100),
      (.kvBytesPerToken, 15 / 100), (.transferBytes, 5 / 100), (.diskBytes, 5 / 100), (.energyJoules, 5 / 100),
      (.quality, 5 / 100)]

/-- The least int that is too large for a float: half a unit over the largest one. -/
def FLOAT_LIMIT : ℕ := 2 ^ 1024 - 2 ^ 970

/-- `float(value)`. -/
def toFloat (round : ℚ → ℚ) : Number → Except ParetoFailure ℚ
  | .int n => if n < FLOAT_LIMIT then .ok (round n) else .error .overflow
  | .float q => .ok q

/-- `observed` of `_benefits`, with the values as floats. -/
def observed (round : ℚ → ℚ) (candidates : List RepresentationCandidate) (metric : Metric) :
    Except ParetoFailure (List (PyStr × ℚ)) :=
  (candidates.filterMap fun c => (candidateMetric c metric).map fun value => (c.name, value)).mapM fun e => do
    let value ← toFloat round e.2
    return (e.1, value)

def benefits (round : ℚ → ℚ) (candidates : List RepresentationCandidate) (metric : Metric) :
    Except ParetoFailure (List (PyStr × ℚ)) := do
  let observed ← observed round candidates metric
  let values := observed.map Prod.snd
  return match values.min?, values.max? with
    | some low, some high =>
      if low = high then observed.map fun e => (e.1, 1)
      else if MAXIMIZE.contains metric then
        observed.map fun e => (e.1, round (round (e.2 - low) / round (high - low)))
      else observed.map fun e => (e.1, round (round (high - e.2) / round (high - low)))
    | _, _ => []

/-- `components`, with their weights. -/
def components (benefits : List (Metric × ℚ × List (PyStr × ℚ))) (candidate : RepresentationCandidate) :
    List (Metric × ℚ × ℚ) :=
  benefits.filterMap fun e => (e.2.2.lookup candidate.name).map fun benefit => (e.1, benefit, e.2.1)

def score (round : ℚ → ℚ) (components : List (Metric × ℚ × ℚ)) : ℚ :=
  let totals := components.foldl (fun t e =>
    (round (t.1 + round (e.2.1 * round e.2.2)), round (t.2 + round e.2.2))) ((0, 0) : ℚ × ℚ)
  if totals.2 = 0 then 0 else round (totals.1 / totals.2)

/-- The key of `min`: the score and `tie_key`; no value stands for infinity. -/
abbrev Key : Type := ℚ ×ₗ ℚ ×ₗ ℚ ×ₗ WithTop ℚ ×ₗ WithTop ℕ ×ₗ WithTop ℕ ×ₗ PyStr ×ₗ PyStr

def orInf {α : Type} : Option α → WithTop α
  | none => ⊤
  | some a => a

/-- `(-scores[item.name][0], tie_key(item))`. -/
def key (score : ℚ) (candidate : RepresentationCandidate) : Key :=
  toLex (-score, toLex (-candidate.quality, toLex (-candidate.tokensPerSecond.getD 0,
    toLex (orInf candidate.ttftMs, toLex (orInf candidate.residentBytes, toLex (orInf candidate.peakBytes,
      toLex (candidate.name, candidate.representation.value)))))))

/-! ## The decision -/

/-- What `facts` says about a candidate. -/
structure CandidateFact where
  candidateId : PyStr
  hardFilters : List (PyStr × Bool)
  eligible : Bool
  selectionReason : PyStr
  dominatedBy : List PyStr
  profileScore : Option (ℚ × List (Metric × ℚ))

/-- `ParetoDecision`, with what its receipt says about the candidates. -/
structure ParetoDecision where
  selected : Option RepresentationCandidate
  status : PyStr
  reason : PyStr
  facts : List CandidateFact
  paretoFrontier : List PyStr

def candidateLe (a b : RepresentationCandidate) : Prop :=
  toLex (a.name, a.representation.value) ≤ toLex (b.name, b.representation.value)

instance : DecidableRel candidateLe := fun a b =>
  inferInstanceAs (Decidable (toLex (a.name, a.representation.value) ≤ toLex (b.name, b.representation.value)))

/-- The other candidates that dominate a candidate; the names are distinct. -/
def dominators (eligible : List RepresentationCandidate) (candidate : RepresentationCandidate) :
    List RepresentationCandidate :=
  eligible.filter fun other => decide (other.name ≠ candidate.name) && dominates other candidate

/-- The eligible candidates that none dominates. -/
def frontier (eligible : List RepresentationCandidate) : List RepresentationCandidate :=
  (eligible.filter fun candidate => dominators eligible candidate = []).insertionSort candidateLe

def fact (round : ℚ → ℚ) (context : PolicyContext) (threshold : ℚ) (eligible : List RepresentationCandidate)
    (benefits : List (Metric × ℚ × List (PyStr × ℚ))) (selected : Option RepresentationCandidate)
    (candidate : RepresentationCandidate) : CandidateFact :=
  let filters := hardFilters candidate context threshold
  let admitted := isEligible context threshold candidate
  let others := (dominators eligible candidate).map RepresentationCandidate.name
  let parts := components benefits candidate
  { candidateId := candidate.name
    hardFilters := filters.1
    eligible := admitted
    selectionReason := if selected.map RepresentationCandidate.name = some candidate.name then "selected_by_profile"
      else if !admitted then filters.2.getD "eligible_pending_pareto"
      else if others ≠ [] then "pareto_dominated" else "pareto_frontier"
    dominatedBy := if admitted then others.insertionSort (· ≤ ·) else []
    profileScore := if admitted && others = [] then some (score round parts, parts.map fun e => (e.1, e.2.1)) else none }

/-- The reason when no candidate is selected. -/
def cannotFit (threshold : ℚ) (normalized : List RepresentationCandidate) (facts : List CandidateFact) : PyStr :=
  if normalized = [] then "no_candidates"
  else if !normalized.any fun c => threshold ≤ c.quality then "quality_threshold_unmet"
  else if facts.any fun f => !f.eligible && f.selectionReason = "candidate_unavailable" then
    "no_available_candidate_fits"
  else "no_candidate_fits_constraints"

/-- `ParetoPolicy.decide`, of a policy with a profile and a threshold. -/
def ParetoPolicy.decide (round : ℚ → ℚ) (profile : Profile) (qualityThreshold : ℚ)
    (candidates : List RepresentationCandidate) (context : PolicyContext) : Except ParetoFailure ParetoDecision := do
  let threshold := context.qualityThreshold.getD qualityThreshold
  let normalized := candidates.insertionSort candidateLe
  if ¬ (normalized.map RepresentationCandidate.name).Nodup then throw (.rejected "candidate_identity_duplicate")
  let eligible := normalized.filter (isEligible context threshold)
  let front := frontier eligible
  let benefits ← (profileWeights profile).mapM fun w => do
    let benefit ← benefits round front w.1
    return (w.1, w.2, benefit)
  let selected := front.argmin fun c => key (score round (components benefits c)) c
  let facts := normalized.map (fact round context threshold eligible benefits selected)
  return {
    selected
    status := if selected.isSome then "selected" else "cannot_fit"
    reason := if selected.isSome then "selected_pareto_frontier" else cannotFit threshold normalized facts
    facts
    paretoFrontier := front.map RepresentationCandidate.name }

end Pareto

end SimplicioFast
