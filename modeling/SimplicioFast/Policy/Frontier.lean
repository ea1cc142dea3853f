import SimplicioFast.Lib.Machine
import SimplicioFast.Lib.Sources
import SimplicioFast.Policy.Pareto

/-!
# The frontier of the Pareto policy

`decide` should select a candidate whenever one is eligible.  Domination compares only the metrics that both candidates
have, so that it may lead around a cycle; then no candidate of the cycle is on the frontier.  There is a frontier
exactly when some eligible candidate is not below a cycle (`selects_iff`).  Besides, a byte count of the frontier that
is too large for a float makes the scores fail.
-/

namespace SimplicioFast

namespace Pareto

variable {round : ℚ → ℚ} {profile : Profile} {threshold : ℚ} {context : PolicyContext}
  {candidates eligible : List RepresentationCandidate} {a b c : RepresentationCandidate} {metric : Metric}

/-! ## Domination -/

theorem dominates_self (c : RepresentationCandidate) : dominates c c = false := by
  have same : ∀ e ∈ comparisons c c, e.1 = e.2.1 := by
    intro e mem
    obtain ⟨metric, -, compared⟩ := List.mem_filterMap.1 mem
    cases value : candidateMetric c metric with
    | none =>
      rw [value] at compared
      cases compared
    | some v =>
      rw [value] at compared
      cases compared
      rfl
  unfold dominates
  dsimp only
  split
  · rfl
  · rw [Bool.and_eq_false_iff]
    right
    rw [List.any_eq_false]
    intro e mem
    rw [same e mem]
    simp

theorem dominators_eq_nil_iff (distinct : (eligible.map RepresentationCandidate.name).Nodup) (mem : c ∈ eligible) :
    dominators eligible c = [] ↔ ∀ d ∈ eligible, dominates d c = false := by
  unfold dominators
  rw [List.filter_eq_nil_iff]
  refine forall₂_congr fun d inside => ?_
  rw [Bool.and_eq_true, decide_eq_true_eq, not_and, Bool.not_eq_true]
  constructor
  · intro none
    by_cases same : d.name = c.name
    · rw [List.inj_on_of_nodup_map distinct inside mem same]
      exact dominates_self c
    · exact none same
  · exact fun none _ => none

theorem mem_frontier_iff (distinct : (eligible.map RepresentationCandidate.name).Nodup) :
    c ∈ frontier eligible ↔ c ∈ eligible ∧ ∀ d ∈ eligible, dominates d c = false := by
  unfold frontier
  rw [List.mem_insertionSort, List.mem_filter, decide_eq_true_eq]
  exact and_congr_right fun mem => dominators_eq_nil_iff distinct mem

theorem exists_undominated_iff : (∃ c ∈ eligible, ∀ d ∈ eligible, dominates d c = false) ↔
    ∃ c ∈ eligible, ¬ Sources.BelowCycle {d | d ∈ eligible} (dominates · ·) c := by
  have sources := Sources.exists_source_iff (r := fun d c => dominates d c = true) (List.finite_toSet eligible)
  simp only [Set.mem_ofPred_eq, Bool.not_eq_true] at sources
  exact sources

/-! ## Scores -/

/-- The byte counts of a candidate that a profile weighs are floats. -/
def Fits (profile : Profile) (c : RepresentationCandidate) : Prop :=
  ∀ w ∈ profileWeights profile, ∀ n, candidateMetric c w.1 = some (.int n) → n < FLOAT_LIMIT

theorem exists_toFloat_iff {v : Number} : (∃ q, toFloat round v = .ok q) ↔ ∀ n, v = .int n → n < FLOAT_LIMIT := by
  cases v with
  | float q => exact iff_of_true ⟨q, rfl⟩ fun n same => by cases same
  | int n =>
    unfold toFloat
    constructor
    · rintro ⟨q, returned⟩ m same
      cases same
      dsimp only at returned
      split_ifs at returned with less
      exact less
    · exact fun less => ⟨round n, if_pos (less n rfl)⟩

theorem exists_observed_iff : (∃ l, observed round candidates metric = .ok l) ↔
    ∀ c ∈ candidates, ∀ n, candidateMetric c metric = some (.int n) → n < FLOAT_LIMIT := by
  unfold observed
  rw [Except.exists_mapM_eq_ok_iff]
  have one (name : PyStr) (v : Number) : (∃ e : PyStr × ℚ, (do
      let value ← toFloat round v
      return (name, value) : Except ParetoFailure (PyStr × ℚ)) = .ok e) ↔ ∀ n, v = .int n → n < FLOAT_LIMIT := by
    rw [← exists_toFloat_iff]
    constructor
    · rintro ⟨e, returned⟩
      obtain ⟨q, first, -⟩ := bind_ok.1 returned
      exact ⟨q, first⟩
    · rintro ⟨q, first⟩
      exact ⟨(name, q), bind_ok.2 ⟨q, first, rfl⟩⟩
  constructor
  · intro all c mem n value
    refine (one c.name (.int n)).1 (all (c.name, .int n) ?_) n rfl
    exact List.mem_filterMap.2 ⟨c, mem, by rw [value]; rfl⟩
  · intro all e mem
    obtain ⟨c, inside, same⟩ := List.mem_filterMap.1 mem
    obtain ⟨v, value, rfl⟩ := Option.map_eq_some_iff.1 same
    refine (one c.name v).2 fun n same => ?_
    rw [same] at value
    exact all c inside n value

theorem exists_benefits_iff : (∃ l, benefits round candidates metric = .ok l) ↔
    ∀ c ∈ candidates, ∀ n, candidateMetric c metric = some (.int n) → n < FLOAT_LIMIT := by
  rw [← exists_observed_iff]
  unfold benefits
  constructor
  · rintro ⟨l, returned⟩
    obtain ⟨seen, first, -⟩ := bind_ok.1 returned
    exact ⟨seen, first⟩
  · rintro ⟨seen, first⟩
    exact ⟨_, bind_ok.2 ⟨seen, first, rfl⟩⟩

/-! ## The decision -/

/-- The candidates that pass the hard filters. -/
def eligibleOf (candidates : List RepresentationCandidate) (context : PolicyContext) (threshold : ℚ) :
    List RepresentationCandidate :=
  candidates.filter (isEligible context (context.qualityThreshold.getD threshold))

/-- `decide` selects one of the eligible candidates, and that one is on the frontier. -/
def Selects (candidates : List RepresentationCandidate) (context : PolicyContext) (threshold : ℚ)
    (outcome : Except ParetoFailure ParetoDecision) : Prop :=
  ∃ decision, outcome = .ok decision ∧ ∃ c ∈ eligibleOf candidates context threshold,
    decision.selected = some c ∧ c.name ∈ decision.paretoFrontier

theorem selects_iff_frontier (distinct : (candidates.map RepresentationCandidate.name).Nodup) :
    Selects candidates context threshold (ParetoPolicy.decide round profile threshold candidates context) ↔
      (∃ c ∈ eligibleOf candidates context threshold, ∀ d ∈ eligibleOf candidates context threshold,
        dominates d c = false) ∧
      ∀ c ∈ eligibleOf candidates context threshold, (∀ d ∈ eligibleOf candidates context threshold,
        dominates d c = false) → Fits profile c := by
  let sorted := (candidates.insertionSort candidateLe).filter
    (isEligible context (context.qualityThreshold.getD threshold))
  have mem_sorted {c : RepresentationCandidate} : c ∈ sorted ↔ c ∈ eligibleOf candidates context threshold := by
    rw [List.mem_filter, List.mem_insertionSort]
    exact List.mem_filter.symm
  have names : ((candidates.insertionSort candidateLe).map RepresentationCandidate.name).Nodup :=
    ((List.perm_insertionSort candidateLe candidates).map _).nodup_iff.2 distinct
  have mem_front {c : RepresentationCandidate} : c ∈ frontier sorted ↔ c ∈ eligibleOf candidates context threshold ∧
      ∀ d ∈ eligibleOf candidates context threshold, dominates d c = false := by
    rw [mem_frontier_iff (names.sublist (List.filter_sublist.map _))]
    exact and_congr mem_sorted (forall_congr' fun d => imp_congr_left mem_sorted)
  let step (w : Metric × ℚ) : Except ParetoFailure (Metric × ℚ × List (PyStr × ℚ)) := do
    let benefit ← benefits round (frontier sorted) w.1
    return (w.1, w.2, benefit)
  have scored : (∃ l, (profileWeights profile).mapM step = .ok l) ↔ ∀ c ∈ frontier sorted, Fits profile c := by
    rw [Except.exists_mapM_eq_ok_iff]
    have one (w : Metric × ℚ) : (∃ e, step w = .ok e) ↔
        ∀ c ∈ frontier sorted, ∀ n, candidateMetric c w.1 = some (.int n) → n < FLOAT_LIMIT := by
      rw [← exists_benefits_iff]
      constructor
      · rintro ⟨e, returned⟩
        obtain ⟨l, first, -⟩ := bind_ok.1 returned
        exact ⟨l, first⟩
      · rintro ⟨l, first⟩
        exact ⟨(w.1, w.2, l), bind_ok.2 ⟨l, first, rfl⟩⟩
    simp only [one]
    exact ⟨fun all c mem w weighed => all w weighed c mem, fun all w weighed c mem => all c mem w weighed⟩
  unfold ParetoPolicy.decide
  dsimp only
  rw [if_neg (not_not.2 names)]
  show Selects candidates context threshold ((profileWeights profile).mapM step >>= _) ↔ _
  constructor
  · rintro ⟨decision, returned, c, -, selected, -⟩
    obtain ⟨l, first, rest⟩ := bind_ok.1 returned
    cases rest
    have front := mem_front.1 (List.argmin_mem (Option.mem_def.2 selected))
    exact ⟨⟨c, front⟩, fun c mem none => scored.1 ⟨l, first⟩ c (mem_front.2 ⟨mem, none⟩)⟩
  · rintro ⟨⟨c, mem, none⟩, fits⟩
    obtain ⟨l, first⟩ := scored.2 fun c mem => fits c (mem_front.1 mem).1 (mem_front.1 mem).2
    rw [first]
    have some_front : frontier sorted ≠ [] := List.ne_nil_of_mem (mem_front.2 ⟨mem, none⟩)
    cases chosen : (frontier sorted).argmin fun c => key (score round (components l c)) c with
    | none => exact absurd (List.argmin_eq_none.1 chosen) some_front
    | some best =>
      have front := List.argmin_mem (Option.mem_def.2 chosen)
      exact ⟨_, rfl, best, (mem_front.1 front).1, chosen, List.mem_map_of_mem front⟩

/-- A candidate is selected exactly when some eligible candidate is not below a cycle of dominations among the eligible
ones, and the byte counts that the profile weighs are floats for each eligible candidate that none dominates. -/
theorem selects_iff (round : ℚ → ℚ) (profile : Profile) (threshold : ℚ) (context : PolicyContext)
    (distinct : (candidates.map RepresentationCandidate.name).Nodup) :
    Selects candidates context threshold (ParetoPolicy.decide round profile threshold candidates context) ↔
      (∃ c ∈ eligibleOf candidates context threshold,
        ¬ Sources.BelowCycle {d | d ∈ eligibleOf candidates context threshold} (dominates · ·) c) ∧
      ∀ c ∈ eligibleOf candidates context threshold, (∀ d ∈ eligibleOf candidates context threshold,
        dominates d c = false) → Fits profile c := by
  rw [selects_iff_frontier distinct, exists_undominated_iff]

/-- Three candidates of the same quality, each of which lacks what it would lose against one of the others. -/
def cycle : List RepresentationCandidate :=
  [{ name := "a", representation := .sqtn, quality := 1, tokensPerSecond := some 2, energyJoules := some 2 },
    { name := "b", representation := .sqtn, quality := 1, tokensPerSecond := some 1, ttftMs := some 1 },
    { name := "c", representation := .sqtn, quality := 1, ttftMs := some 2, energyJoules := some 1 }]

def pair : List RepresentationCandidate := cycle.take 2

example : dominates cycle[0] cycle[1] ∧ dominates cycle[1] cycle[2] ∧ dominates cycle[2] cycle[0] := by
  decide +kernel

/-- All three candidates of the cycle are eligible, and none is selected. -/
theorem not_selects_cycle : ¬ ∀ (round : ℚ → ℚ) (profile : Profile) (threshold : ℚ) (context : PolicyContext)
    (candidates : List RepresentationCandidate), (candidates.map RepresentationCandidate.name).Nodup →
      eligibleOf candidates context threshold ≠ [] →
        Selects candidates context threshold (ParetoPolicy.decide round profile threshold candidates context) := by
  intro all
  obtain ⟨decision, returned, c, -, selected, -⟩ := all id .balanced 0 {} cycle (by decide +kernel) (by decide +kernel)
  have none : (ParetoPolicy.decide id .balanced 0 cycle {}).toOption.map ParetoDecision.selected = some none := by
    decide +kernel
  rw [returned] at none
  rw [show decision.selected = Option.none from Option.some.inj none] at selected
  cases selected

/-- The policy between two candidates. -/
theorem selects_iff_pair : (pair.map RepresentationCandidate.name).Nodup ∧
    (Selects pair {} 0 (ParetoPolicy.decide id .balanced 0 pair {}) ↔
      (∃ c ∈ eligibleOf pair {} 0, ¬ Sources.BelowCycle {d | d ∈ eligibleOf pair {} 0} (dominates · ·) c) ∧
      ∀ c ∈ eligibleOf pair {} 0, (∀ d ∈ eligibleOf pair {} 0, dominates d c = false) → Fits .balanced c) :=
  ⟨by decide +kernel, selects_iff id .balanced 0 {} (by decide +kernel)⟩

end Pareto

end SimplicioFast
